/-!
# Comments at the end of a line

Two hyphens start a comment unless an odd number of single quotes stands before them. Pairs of
hyphens are looked for from left to right and do not overlap.
-/
namespace SchemaTransfer.Dump

def isReturnOrFeed (c : Char) : Bool := c == '\r' || c == '\n'

/-- A line without the characters that end it. -/
def withoutLineEnd (line : List Char) : List Char :=
  (line.reverse.dropWhile isReturnOrFeed).reverse

/-- `quoted` tells whether the number of quotes before is odd. -/
def beforeComment (quoted : Bool) : List Char → List Char
  | [] => []
  | '-' :: '-' :: cs => if quoted then '-' :: '-' :: beforeComment quoted cs else []
  | c :: cs => c :: beforeComment (if c == '\'' then !quoted else quoted) cs

/-- A line without its end and without the comment behind it. -/
def stripComment (line : List Char) : List Char := beforeComment false (withoutLineEnd line)

end SchemaTransfer.Dump
