/-!
# Blanks

A blank is any character that Unicode separates words or lines with, the four ASCII separators
from U+001C to U+001F included. Trimming removes blanks only, so what remains is empty or starts
and ends with another character.
-/
namespace SchemaTransfer.Unicode

/-- The blanks above 127 are listed one by one except for the row of spaces at U+2000. -/
def isBlank (c : Char) : Bool :=
  let n := c.toNat
  if n < 128 then
    n == 32 || (9 ≤ n && n ≤ 13) || (28 ≤ n && n ≤ 31)
  else
    n == 0x85 || n == 0xa0 || n == 0x1680 || (0x2000 ≤ n && n ≤ 0x200a) || n == 0x2028 ||
      n == 0x2029 || n == 0x202f || n == 0x205f || n == 0x3000

def allBlank (cs : List Char) : Bool := cs.all isBlank

def trimLeft (cs : List Char) : List Char := cs.dropWhile isBlank

def trimRight (cs : List Char) : List Char := (cs.reverse.dropWhile isBlank).reverse

def trim (cs : List Char) : List Char := trimRight (trimLeft cs)

end SchemaTransfer.Unicode
