import SchemaTransfer.Encoding.Fault

/-!
# Encodings of one byte per character
-/
namespace SchemaTransfer.Encoding.SingleByte

/-- Decodes bytes that `p` bytes stand before. -/
def asciiFrom (p : Nat) : List UInt8 → Except Fault (List Char)
  | [] => .ok []
  | b :: rest =>
    if b < 0x80 then (asciiFrom (p + 1) rest).map (Char.ofNat b.toNat :: ·)
    else .error ⟨"ascii", [b], p, .notAscii⟩

def latin1 (bytes : List UInt8) : List Char := bytes.map fun b => Char.ofNat b.toNat

/-- The eight bytes that ISO 8859-15 reads differently from ISO 8859-1. -/
def latin9Changes : List (UInt8 × Char) :=
  [(0xa4, '€'), (0xa6, 'Š'), (0xa8, 'š'), (0xb4, 'Ž'), (0xb8, 'ž'), (0xbc, 'Œ'), (0xbd, 'œ'),
   (0xbe, 'Ÿ')]

def latin9 (bytes : List UInt8) : List Char :=
  bytes.map fun b => (latin9Changes.lookup b).getD (Char.ofNat b.toNat)

end SchemaTransfer.Encoding.SingleByte
