import SchemaTransfer.Text.Scan

/-!
# Other lines of a table

Behind the columns stand the tablespaces of a table, all on one line or not. The options of an
identity column stand one on a line, `ORDER` or `NO ORDER` last.
-/
namespace SchemaTransfer.Dump
open Unicode Scan

/-- Whether a line holds a closing parenthesis only. -/
def closesColumns (line : List Char) : Bool := trim line == [')']

structure Storage where
  tablespace : Option String
  indexTablespace : Option String
  longTablespace : Option String
  deriving DecidableEq, Inhabited

namespace Storage

/-- A name behind keywords with blanks between them. -/
def place? : List String → List Char → Option (String × List Char)
  | [], cs => name? cs
  | w :: ws, cs => do
    let cs ← literal? w cs
    let cs ← blanks? cs
    place? ws cs

/-- The name behind keywords, or nothing, and what follows with the blanks before it left out. -/
def optionalPlace (keywords : List String) (cs : List Char) : Option String × List Char :=
  match place? keywords cs with
  | some (name, rest) => (some name, trimLeft rest)
  | none => (none, cs)

/-- How a table is organized. -/
def organization? (cs : List Char) : Option (List Char) := do
  let cs ← literal? "ORGANIZE" cs
  let cs ← blanks? cs
  let cs ← literal? "BY" cs
  let cs ← blanks? cs
  (oneOf? ["ROW", "COLUMN"] cs).map (·.2)

def ofLine? (line : List Char) : Option Storage := do
  let (tablespace, cs) := optionalPlace ["IN"] (trimLeft line)
  let (indexTablespace, cs) := optionalPlace ["INDEX", "IN"] cs
  let (longTablespace, cs) := optionalPlace ["LONG", "IN"] cs
  finish? (optional organization? cs)
  return ⟨tablespace, indexTablespace, longTablespace⟩

end Storage

/-- One option of an identity column. Numbers are given by their numerals. -/
inductive IdentityClause
  | start (value : List Char)
  | increment (value : List Char)
  | minValue (value : List Char)
  | maxValue (value : List Char)
  | cycle (on : Bool)
  /-- `none` for `NO CACHE`. -/
  | cache (digits : Option (List Char))
  /-- The last option. The line may close the list of columns too. -/
  | order (on closes : Bool)
  deriving DecidableEq, Inhabited

namespace IdentityClause

/-- A number up to the end of a line; a plus sign before it is passed. -/
def value? (cs : List Char) : Option (List Char) := do
  let (value, cs) ← number? (optional (literal? "+") cs)
  finish? cs
  return value

def fixed : List (String × IdentityClause) :=
  [("NO CYCLE", .cycle false), ("CYCLE", .cycle true), ("NO CACHE", .cache none)]

/-- `[NO] ORDER` and the parenthesis that closes the options, with what may follow it. -/
def order? (cs : List Char) : Option IdentityClause := do
  let no := literal? "NO " cs
  let cs ← literal? "ORDER" (no.getD cs)
  let cs ← literal? ")" (trimLeft cs)
  let cs := trimLeft cs
  match oneOf? [",", ")"] cs with
  | some (separator, cs) =>
    finish? cs
    return .order no.isNone (separator == ")")
  | none =>
    finish? cs
    return .order no.isNone false

def ofLine? (line : List Char) : Option IdentityClause :=
  let cs := trimLeft line
  ((literal? "START WITH " cs).bind value?).map start <|>
    ((literal? "INCREMENT BY " cs).bind value?).map increment <|>
    ((literal? "MINVALUE " cs).bind value?).map minValue <|>
    ((literal? "MAXVALUE " cs).bind value?).map maxValue <|>
    (fixed.find? fun f => f.1.toList == trimRight cs).map (·.2) <|>
    (do
      let cs ← literal? "CACHE " cs
      let (ds, cs) ← digits? cs
      finish? cs
      return .cache (some ds)) <|>
    order? cs

end IdentityClause

end SchemaTransfer.Dump
