/-!
# Sets and mappings of code points as tables

A class of characters is a list of inclusive ranges. A mapping from one code point to one code
point is a list of runs: in a run every `step`-th code point from `first` to `last` goes to the
code point at the same distance from `target`.
-/
namespace SchemaTransfer.Unicode

abbrev Ranges := List (Nat × Nat)

def Ranges.contains (rs : Ranges) (c : Char) : Bool :=
  rs.any fun r => r.1 ≤ c.toNat && c.toNat ≤ r.2

/-- The components are `first`, `last`, `step` and `target`. -/
abbrev Run := Nat × Nat × Nat × Nat

/-- The code point that the first run over `n` gives it. -/
def image? (runs : List Run) (n : Nat) : Option Nat :=
  runs.findSome? fun (first, last, step, target) =>
    if first ≤ n && n ≤ last && (n - first) % step == 0 then some (target + (n - first)) else none

end SchemaTransfer.Unicode
