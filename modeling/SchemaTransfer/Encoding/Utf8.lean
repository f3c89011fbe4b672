import SchemaTransfer.Encoding.Fault

/-!
# UTF-8

Every character has one encoding, of one to four bytes. A byte that cannot start a character is a
fault of its own; where a character breaks off, the fault holds its bytes up to there.
-/
namespace SchemaTransfer.Encoding.Utf8

def isTail (b : UInt8) : Bool := 0x80 ≤ b && b ≤ 0xbf

/-- Whether `b` may follow the lead byte `a` of three bytes: the shortest form is required and
surrogates are no characters. -/
def isSecondOfThree (a b : UInt8) : Bool :=
  isTail b && (if b < 0xa0 then a != 0xe0 else a != 0xed)

/-- Whether `b` may follow the lead byte `a` of four bytes. -/
def isSecondOfFour (a b : UInt8) : Bool :=
  isTail b && (if b < 0x90 then a != 0xf0 else a != 0xf4)

/-- The six bits of a byte behind the lead byte. -/
def bits (b : UInt8) : Nat := b.toNat % 64

def two (a b : UInt8) : Char := Char.ofNat (a.toNat % 32 * 64 + bits b)

def three (a b c : UInt8) : Char := Char.ofNat ((a.toNat % 16 * 64 + bits b) * 64 + bits c)

def four (a b c d : UInt8) : Char :=
  Char.ofNat (((a.toNat % 8 * 64 + bits b) * 64 + bits c) * 64 + bits d)

def fault (position : Nat) (bytes : List UInt8) (reason : Reason) : Except Fault (List Char) :=
  .error ⟨"utf-8", bytes, position, reason⟩

/-- Decodes bytes that `p` bytes stand before. -/
def decodeFrom (p : Nat) : List UInt8 → Except Fault (List Char)
  | [] => .ok []
  | a :: rest =>
    if a < 0x80 then (decodeFrom (p + 1) rest).map (Char.ofNat a.toNat :: ·)
    else if a < 0xc2 then fault p [a] .invalidStart
    else if a < 0xe0 then
      match rest with
      | [] => fault p [a] .unexpectedEnd
      | b :: rest =>
        if isTail b then (decodeFrom (p + 2) rest).map (two a b :: ·)
        else fault p [a] .invalidContinuation
    else if a < 0xf0 then
      match rest with
      | [] => fault p [a] .unexpectedEnd
      | b :: rest =>
        if !isSecondOfThree a b then fault p [a] .invalidContinuation
        else
          match rest with
          | [] => fault p [a, b] .unexpectedEnd
          | c :: rest =>
            if isTail c then (decodeFrom (p + 3) rest).map (three a b c :: ·)
            else fault p [a, b] .invalidContinuation
    else if a < 0xf5 then
      match rest with
      | [] => fault p [a] .unexpectedEnd
      | b :: rest =>
        if !isSecondOfFour a b then fault p [a] .invalidContinuation
        else
          match rest with
          | [] => fault p [a, b] .unexpectedEnd
          | c :: rest =>
            if !isTail c then fault p [a, b] .invalidContinuation
            else
              match rest with
              | [] => fault p [a, b, c] .unexpectedEnd
              | d :: rest =>
                if isTail d then (decodeFrom (p + 4) rest).map (four a b c d :: ·)
                else fault p [a, b, c] .invalidContinuation
    else fault p [a] .invalidStart

def decode (bytes : List UInt8) : Except Fault (List Char) := decodeFrom 0 bytes

/-- The mark that may stand before a text. -/
def mark : List UInt8 := [0xef, 0xbb, 0xbf]

/-- Positions are counted behind the mark. -/
def decodeMarked (bytes : List UInt8) : Except Fault (List Char) :=
  decode ((mark.isPrefixOf? bytes).getD bytes)

def isValid (bytes : List UInt8) : Bool :=
  match decode bytes with
  | .ok _ => true
  | .error _ => false

end SchemaTransfer.Encoding.Utf8
