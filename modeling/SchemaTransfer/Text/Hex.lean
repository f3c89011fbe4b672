/-!
# Hexadecimal digits
-/
namespace SchemaTransfer.Hex

/-- The digit of a number below sixteen, a small letter from ten on. -/
def digit (n : Nat) : Char := if n < 10 then Char.ofNat (48 + n) else Char.ofNat (87 + n)

/-- The last `width` digits of `n`. -/
def digits : (width n : Nat) → List Char
  | 0, _ => []
  | width + 1, n => digits width (n / 16) ++ [digit (n % 16)]

end SchemaTransfer.Hex
