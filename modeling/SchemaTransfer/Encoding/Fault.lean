import SchemaTransfer.Text.Hex

/-!
# Bytes that cannot be decoded

A fault tells which bytes stop a decoder, where they stand, and why.
-/
namespace SchemaTransfer.Encoding

inductive Reason
  | invalidStart
  | invalidContinuation
  | unexpectedEnd
  | truncated
  | loneLowSurrogate
  | loneHighSurrogate
  | notAscii
  /-- Any other reason, in the words of the decoder. -/
  | other (text : String)
  deriving DecidableEq, Inhabited

def Reason.message : Reason → String
  | .invalidStart => "invalid start byte"
  | .invalidContinuation => "invalid continuation byte"
  | .unexpectedEnd => "unexpected end of data"
  | .truncated => "truncated data"
  | .loneLowSurrogate => "illegal encoding"
  | .loneHighSurrogate => "illegal UTF-16 surrogate"
  | .notAscii => "ordinal not in range(128)"
  | .other text => text

structure Fault where
  codec : String
  /-- The bytes in question, of which there is at least one. -/
  bytes : List UInt8
  position : Nat
  reason : Reason
  deriving DecidableEq, Inhabited

def Fault.place (f : Fault) : String :=
  match f.bytes with
  | [b] => s!"byte 0x{String.ofList (Hex.digits 2 b.toNat)} in position {f.position}"
  | bytes => s!"bytes in position {f.position}-{f.position + bytes.length - 1}"

def Fault.message (f : Fault) : String :=
  s!"'{f.codec}' codec can't decode {f.place}: {f.reason.message}"

end SchemaTransfer.Encoding
