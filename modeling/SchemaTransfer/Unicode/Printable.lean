import SchemaTransfer.Unicode.Printable.Table

/-!
# Characters with a visible form

The plain space counts as visible; every other separator and every control does not.
-/
namespace SchemaTransfer.Unicode

def isPrintable (c : Char) : Bool :=
  if c.toNat < 128 then 32 ≤ c.toNat && c.toNat < 127 else !Printable.hidden.contains c

end SchemaTransfer.Unicode
