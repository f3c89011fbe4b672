/-!
# Lines of a text

Texts are cut at line feeds, and empty lines are kept. `firstLine` knows every character that ends a
line.
-/
namespace SchemaTransfer.Lines

def isLineEnd (c : Char) : Bool :=
  let n := c.toNat
  (10 ≤ n && n ≤ 13) || (28 ≤ n && n ≤ 30) || n == 0x85 || n == 0x2028 || n == 0x2029

def firstLine (cs : List Char) : List Char := cs.takeWhile fun c => !isLineEnd c

end SchemaTransfer.Lines

namespace SchemaTransfer

/-- The lines of a text, cut at line feeds: one more than there are line feeds. -/
def linesOf (s : String) : List (List Char) := List.splitOn '\n' s.toList

/-- Texts one below the other, with a line feed between two. -/
def unlines (texts : List String) : String := "\n".intercalate texts

end SchemaTransfer
