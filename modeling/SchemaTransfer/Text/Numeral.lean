import SchemaTransfer.Unicode.Digit

/-!
# Numerals

A numeral is a row of decimal digits of any script with a minus sign before it or not. Numerals of
more than `maxDigits` digits, leading zeros counted, are refused.
-/
namespace SchemaTransfer.Numeral
open Unicode

def maxDigits : Nat := 4300

/-- The number that a row of digits denotes; a character that is no digit counts as a zero. -/
def value (ds : List Char) : Nat :=
  ds.foldl (fun n d => 10 * n + (Digit.value? d).getD 0) 0

def natural? (ds : List Char) : Option Nat :=
  if ds.length ≤ maxDigits then some (value ds) else none

def integer? : List Char → Option Int
  | '-' :: ds => (natural? ds).map fun n => -(n : Int)
  | ds => (natural? ds).map Int.ofNat

/-- Whether a number is written with at most `maxDigits` digits. -/
def fits (n : Nat) : Bool := n < Nat.pow 10 maxDigits

end SchemaTransfer.Numeral
