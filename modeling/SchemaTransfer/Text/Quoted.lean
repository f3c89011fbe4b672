import SchemaTransfer.Text.Hex
import SchemaTransfer.Unicode.Printable

/-!
# Texts quoted in messages

A text is shown between single quotes, or between double quotes if it has a single quote and no
double one. The backslash and the enclosing quote get a backslash before them, the tab, the line
feed and the carriage return have escapes of one letter, and every other character without a
visible form is given by its code point in two, four or eight hexadecimal digits.
-/
namespace SchemaTransfer.Quoted
open Unicode

def escape (quote : Char) (c : Char) : List Char :=
  if c == '\\' || c == quote then ['\\', c]
  else if c == '\t' then ['\\', 't']
  else if c == '\n' then ['\\', 'n']
  else if c == '\r' then ['\\', 'r']
  else if isPrintable c then [c]
  else if c.toNat < 0x100 then '\\' :: 'x' :: Hex.digits 2 c.toNat
  else if c.toNat < 0x10000 then '\\' :: 'u' :: Hex.digits 4 c.toNat
  else '\\' :: 'U' :: Hex.digits 8 c.toNat

def enclosing (cs : List Char) : Char :=
  if cs.contains '\'' && !cs.contains '"' then '"' else '\''

def quote (cs : List Char) : String :=
  let q := enclosing cs
  .ofList (q :: cs.flatMap (escape q) ++ [q])

end SchemaTransfer.Quoted
