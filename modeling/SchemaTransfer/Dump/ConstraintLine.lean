import SchemaTransfer.Text.Scan

/-!
# Lines of constraints and indexes

Lists of columns have one column on a line. The lines around them are matched as a whole.
-/
namespace SchemaTransfer.Dump
open Unicode Scan

/-- One line of a list of columns. -/
structure ListItem where
  name : String
  direction : Option String
  /-- The line closes the list. -/
  closes : Bool
  deriving DecidableEq, Inhabited

namespace ListItem

def isAsciiLetter (c : Char) : Bool := ('A' ≤ c && c ≤ 'Z') || ('a' ≤ c && c ≤ 'z')

/-- A quoted name, or a plain one, which is taken in upper case. -/
def item? (cs : List Char) : Option (String × List Char) :=
  match cs with
  | '"' :: _ => name? cs
  | c :: rest =>
    if isAsciiLetter c || c == '_' then
      let goesOn := fun c => isWord c || c == '$' || c == '#' || c == '@'
      some (.ofList (upper (c :: rest.takeWhile goesOn)), rest.dropWhile goesOn)
    else none
  | [] => none

def direction? (cs : List Char) : Option (String × List Char) :=
  (blanks? cs).bind (oneOf? ["ASC", "DESC"])

def ofLine? (line : List Char) : Option ListItem := do
  let cs := optional (literal? "(") (trimLeft line)
  let (name, cs) ← item? (trimLeft cs)
  let (direction, cs) := match direction? cs with
    | some (direction, cs) => (some direction, cs)
    | none => (none, cs)
  match oneOf? [",", ")"] (trimLeft cs) with
  | some (separator, cs) =>
    finish? cs
    return ⟨name, direction, separator == ")"⟩
  | none =>
    finish? cs
    return ⟨name, direction, false⟩

end ListItem

/-- The first line behind `ALTER TABLE`. -/
inductive Addition
  | primaryKey (name : Option String)
  | unique (name : Option String)
  | foreignKey (name : Option String)
  | check (name : Option String)
  deriving DecidableEq, Inhabited

namespace Addition

/-- The name of a constraint, if one is given, and what follows the blanks behind it. -/
def named? (name? : List Char → Option (String × List Char)) (cs : List Char) :
    Option (Option String × List Char) := do
  let cs ← blanks? cs
  match literal? "CONSTRAINT" cs with
  | none => return (none, cs)
  | some cs =>
    let cs ← blanks? cs
    let (name, cs) ← name? cs
    return (some name, ← blanks? cs)

/-- All characters up to the next blank. -/
def bare? (cs : List Char) : Option (String × List Char) :=
  match cs.takeWhile fun c => !isBlank c with
  | [] => none
  | name => some (.ofList name, cs.dropWhile fun c => !isBlank c)

/-- An addition that is told by one of several texts at the end of its line. -/
def ending? (endings : List (String × (Option String → Addition)))
    (name? : List Char → Option (String × List Char)) (line : List Char) : Option Addition := do
  let cs ← literal? "ADD" (trimLeft line)
  let (name, cs) ← named? name? cs
  let (_, make) ← endings.find? fun e => e.1.toList == trimRight cs
  return make name

/-- The name of a check constraint may stand without quotes. -/
def ofLine? (line : List Char) : Option Addition :=
  ending? [("PRIMARY KEY", primaryKey), ("UNIQUE", unique), ("FOREIGN KEY", foreignKey),
      ("CHECK", check)] Scan.name? line <|>
    ending? [("CHECK", check)] bare? line

end Addition

/-- The table that a foreign key refers to, by schema and name. -/
def references? (line : List Char) : Option (String × String) := do
  let cs ← literal? "REFERENCES" (trimLeft line)
  let cs ← blanks? cs
  let (name, cs) ← qualified? cs
  finish? cs
  return name

/-- A line behind the columns of a constraint. -/
inductive ConstraintTrailer
  | onDelete (action : String)
  | onUpdate (action : String)
  | enforced (on : Bool)
  | optimization
  deriving DecidableEq, Inhabited

namespace ConstraintTrailer

def actions : List String := ["RESTRICT", "NO ACTION", "CASCADE", "SET NULL"]

/-- Every trailer with its line. -/
def all : List (String × ConstraintTrailer) :=
  actions.map (fun a => ("ON DELETE " ++ a, onDelete a)) ++
    actions.map (fun a => ("ON UPDATE " ++ a, onUpdate a)) ++
    [("ENFORCED", enforced true), ("NOT ENFORCED", enforced false),
     ("ENABLE QUERY OPTIMIZATION", optimization), ("DISABLE QUERY OPTIMIZATION", optimization)]

def ofLine? (line : List Char) : Option ConstraintTrailer :=
  (all.find? fun t => t.1.toList == trim line).map (·.2)

end ConstraintTrailer

/-- Whether a line ends the condition of a check constraint. -/
def endsCheck (line : List Char) : Bool :=
  let cs := trim line
  let cs := optional (fun cs => (literal? "NOT" cs).bind blanks?) cs
  cs == "ENFORCED".toList

/-- The list of included columns with its opening parenthesis. -/
def include? (line : List Char) : Option (List Char) := do
  let cs ← literal? "INCLUDE" (trimLeft line)
  let rest := trimLeft cs
  let _ ← literal? "(" rest
  lastLine? rest

namespace IndexTrailer

def fixed : List String :=
  ["ALLOW REVERSE SCANS", "DISALLOW REVERSE SCANS", "COMPRESS YES", "COMPRESS NO", "CLUSTER",
   "PAGE SPLIT SYMMETRIC", "PAGE SPLIT HIGH", "PAGE SPLIT LOW", "COLLECT STATISTICS",
   "COLLECT SAMPLED STATISTICS", "COLLECT DETAILED STATISTICS",
   "COLLECT SAMPLED DETAILED STATISTICS"]

def clause? (cs : List Char) : Option (List Char) :=
  (oneOf? fixed cs).map (·.2) <|>
    (oneOf? ["PCTFREE ", "MINPCTUSED "] cs).bind fun (_, cs) => (digits? cs).map (·.2)

/-- Whether a text consists of blanks behind at most `bound` clauses, each behind blanks. -/
def areMore : (bound : Nat) → List Char → Bool
  | 0, cs => allBlank cs
  | bound + 1, cs =>
    match (blanks? cs).bind clause? with
    | some rest => areMore bound rest
    | none => allBlank cs

/-- Whether a line consists of physical options of an index. -/
def isLine (line : List Char) : Bool :=
  match clause? (trimLeft line) with
  | some rest => areMore rest.length rest
  | none => false

end IndexTrailer

end SchemaTransfer.Dump
