import SchemaTransfer.Unicode.Word

/-!
# Replacing parts of a text

A pattern says how many characters it accepts at the front of a text. All its occurrences are
replaced from left to right, each search going on behind the part that was replaced.
-/
namespace SchemaTransfer.Replace
open Unicode

/-- The number of characters that a scanner passes. -/
def extent? (p : List Char → Option (List Char)) (cs : List Char) : Option Nat :=
  (p cs).map fun rest => cs.length - rest.length

/-- `passed` characters still belong to the occurrence replaced last. `inWord` tells whether a
word goes up to here. -/
def allFrom (p : List Char → Option (List Char)) (atWord : Bool) (new : List Char) :
    (passed : Nat) → (inWord : Bool) → List Char → List Char
  | _, _, [] => []
  | passed + 1, _, c :: cs => allFrom p atWord new passed (isWord c) cs
  | 0, inWord, c :: cs =>
    match if atWord && inWord then none else extent? p (c :: cs) with
    | some n => new ++ allFrom p atWord new (n - 1) (isWord c) cs
    | none => c :: allFrom p atWord new 0 (isWord c) cs

/-- Replaces every occurrence of `p` by `new`. -/
def all (p : List Char → Option (List Char)) (new : String) (cs : List Char) : List Char :=
  allFrom p false new.toList 0 false cs

/-- Replaces every occurrence of `p` that does not start inside a word. -/
def words (p : List Char → Option (List Char)) (new : String) (cs : List Char) : List Char :=
  allFrom p true new.toList 0 false cs

end SchemaTransfer.Replace
