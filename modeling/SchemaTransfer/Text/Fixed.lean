/-!
# Numbers with a fixed number of decimals

A binary fraction is rounded to the nearest decimal, and a tie goes to the even neighbour.
-/
namespace SchemaTransfer.Fixed

/-- The integer nearest to a quotient. -/
def roundDiv (n d : Nat) : Nat :=
  let q := n / d
  let twice := 2 * (n % d)
  if twice < d then q else if d < twice then q + 1 else q + q % 2

/-- A natural number with zeros before it, up to a width. -/
def padded (width n : Nat) : String :=
  String.ofList (List.replicate (width - n.repr.length) '0') ++ n.repr

/-- The digits of `n` with a point before the last `places` of them. -/
def point (places n : Nat) : String :=
  let whole := (n / Nat.pow 10 places).repr
  if places = 0 then whole else whole ++ "." ++ padded places (n % Nat.pow 10 places)

/-- The text of `n / d`. -/
def ofFraction (places n d : Nat) : String := point places (roundDiv (n * Nat.pow 10 places) d)

/-- The text of a floating point number, whose sign, exponent and fraction are taken from its
bits. -/
def ofFloat (places : Nat) (x : Float) : String :=
  let bits := x.toBits.toNat
  let sign := if bits / Nat.pow 2 63 = 1 then "-" else ""
  let exponent := bits / Nat.pow 2 52 % 2048
  let fraction := bits % Nat.pow 2 52
  if exponent = 2047 then if fraction = 0 then sign ++ "inf" else "nan"
  else
    let n := if exponent = 0 then fraction else fraction + Nat.pow 2 52
    let shift := if exponent = 0 then 1 else exponent
    if 1075 ≤ shift then sign ++ ofFraction places (n * Nat.pow 2 (shift - 1075)) 1
    else sign ++ ofFraction places n (Nat.pow 2 (1075 - shift))

end SchemaTransfer.Fixed
