import SchemaTransfer.Encoding.Fault

/-!
# UTF-16

A unit is two bytes, in either order. A character beyond the first 65536 is a pair of surrogates,
the high one first; a surrogate outside of such a pair is a fault.
-/
namespace SchemaTransfer.Encoding.Utf16

inductive Order
  | little
  | big
  deriving DecidableEq, Inhabited

def Order.codec : Order → String
  | .little => "utf-16-le"
  | .big => "utf-16-be"

def unit (o : Order) (a b : UInt8) : Nat :=
  match o with
  | .little => b.toNat * 256 + a.toNat
  | .big => a.toNat * 256 + b.toNat

def isHigh (u : Nat) : Bool := 0xd800 ≤ u && u < 0xdc00

def isLow (u : Nat) : Bool := 0xdc00 ≤ u && u < 0xe000

def pair (high low : Nat) : Char :=
  Char.ofNat (0x10000 + (high - 0xd800) * 0x400 + (low - 0xdc00))

def fault (o : Order) (position : Nat) (bytes : List UInt8) (reason : Reason) :
    Except Fault (List Char) :=
  .error ⟨o.codec, bytes, position, reason⟩

/-- Decodes bytes that `p` bytes stand before. -/
def decodeFrom (o : Order) (p : Nat) : List UInt8 → Except Fault (List Char)
  | [] => .ok []
  | [a] => fault o p [a] .truncated
  | a :: b :: rest =>
    let u := unit o a b
    if isHigh u then
      match rest with
      | c :: d :: rest =>
        if isLow (unit o c d) then
          (decodeFrom o (p + 4) rest).map (pair u (unit o c d) :: ·)
        else fault o p [a, b] .loneHighSurrogate
      | rest => fault o p (a :: b :: rest) .unexpectedEnd
    else if isLow u then fault o p [a, b] .loneLowSurrogate
    else (decodeFrom o (p + 2) rest).map (Char.ofNat u :: ·)

def littleMark : List UInt8 := [0xff, 0xfe]

def bigMark : List UInt8 := [0xfe, 0xff]

/-- A mark tells the order of the bytes, which is little endian without one. Positions are counted
from the mark. -/
def decodeMarked (bytes : List UInt8) : Except Fault (List Char) :=
  match littleMark.isPrefixOf? bytes with
  | some rest => decodeFrom .little 2 rest
  | none =>
    match bigMark.isPrefixOf? bytes with
    | some rest => decodeFrom .big 2 rest
    | none => decodeFrom .little 0 bytes

end SchemaTransfer.Encoding.Utf16
