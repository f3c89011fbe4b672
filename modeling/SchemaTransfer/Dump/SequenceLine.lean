import SchemaTransfer.Text.Scan

/-!
# Lines of sequences and tablespaces

The parts of a sequence are looked for anywhere on a line, and so are the words that tell an
attribute of a tablespace.
-/
namespace SchemaTransfer.Dump
open Unicode Scan

/-- A line of a sequence. Numbers are given by their numerals. -/
inductive SequenceLine
  | range (least greatest : List Char)
  | start (value increment : List Char)
  /-- No digits for `NO CACHE`. -/
  | cache (digits : Option (List Char)) (cycle : Bool)
  deriving DecidableEq, Inhabited

namespace SequenceLine

/-- Two numbers, each behind a text. -/
def twoNumbers? (first second : String) (cs : List Char) :
    Option (List Char × List Char) := do
  let cs ← literal? first cs
  let (a, cs) ← number? cs
  let cs ← literal? second cs
  let (b, _) ← number? cs
  return (a, b)

/-- `NO CACHE`, or `CACHE` and its digits, with the space behind. -/
def cacheSize? (cs : List Char) : Option (Option (List Char) × List Char) :=
  (literal? "NO CACHE " cs).map (none, ·) <|> do
    let cs ← literal? "CACHE " cs
    let (ds, cs) ← digits? cs
    return (some ds, ← literal? " " cs)

def cache? (cs : List Char) : Option (Option (List Char) × Bool) := do
  let (digits, cs) ← cacheSize? cs
  let no := literal? "NO " cs
  let _ ← literal? "CYCLE" (no.getD cs)
  return (digits, no.isNone)

def ofLine? (line : List Char) : Option SequenceLine :=
  (search? (twoNumbers? "MINVALUE " " MAXVALUE ") line).map (fun (a, b) => range a b) <|>
    (search? (twoNumbers? "START WITH " " INCREMENT BY ") line).map (fun (a, b) => start a b) <|>
    (search? cache? line).map fun (digits, cycle) => cache digits cycle

end SequenceLine

/-- What follows the parenthesis that opens a list of containers. -/
def containersStart? (line : List Char) : Option (List Char) := do
  let cs ← literal? "USING" (trimLeft line)
  let cs ← literal? "(" (trimLeft cs)
  lastLine? cs

def tablespaceAttributes : List String :=
  ["EXTENTSIZE", "PREFETCHSIZE", "BUFFERPOOL", "OVERHEAD", "TRANSFERRATE", "AUTORESIZE",
   "INCREASESIZE", "MAXSIZE", "INITIALSIZE", "FILE SYSTEM CACHING", "DROPPED TABLE", "PAGESIZE",
   "MANAGED BY", "DATA TAG"]

def isTablespaceAttribute (line : List Char) : Bool :=
  tablespaceAttributes.any fun w => occurs w line

/-- A container of a tablespace. -/
structure Container where
  path : String
  /-- It is the last one of its list. -/
  closes : Bool
  deriving DecidableEq, Inhabited

namespace Container

/-- The size of a container, behind blanks. -/
def size? (cs : List Char) : Option (List Char) := do
  let cs ← blanks? cs
  let (_, cs) ← digits? cs
  return optional (fun cs => (oneOf? ["K", "M", "G"] cs).map (·.2)) (trimLeft cs)

/-- A path between single quotes, a size or none, and a separator. -/
def one? (cs : List Char) : Option (Container × List Char) := do
  let cs ← literal? "'" cs
  let path := cs.takeWhile (· != '\'')
  let cs ← literal? "'" (cs.dropWhile (· != '\''))
  let (separator, cs) ← oneOf? [",", ")"] (trimLeft (optional size? cs))
  return (⟨.ofList path, separator == ")"⟩, cs)

/-- At most `bound` containers of a text. What stands between them is not looked at. -/
def all : (bound : Nat) → List Char → List Container
  | 0, _ => []
  | bound + 1, cs =>
    match search? one? cs with
    | some (c, rest) => c :: all bound rest
    | none => []

/-- All containers on a line. -/
def ofLine (line : List Char) : List Container := all line.length line

end Container

end SchemaTransfer.Dump
