import SchemaTransfer.Load.Reading

/-!
# The lines of constraints and indexes

A constraint or an index is built from all lines of its statement, or not at all.
-/
namespace SchemaTransfer.Load
open Unicode Dump

namespace ForeignKeyBody

def set (k : ForeignKey) : ConstraintTrailer → ForeignKey
  | .onDelete action => { k with onDelete := some action }
  | .onUpdate action => { k with onUpdate := some action }
  | .enforced on => { k with enforced := on }
  | .optimization => k

def trailers (context : String) (k : ForeignKey) : List (List Char) → Except Failure ForeignKey
  | [] => .ok k
  | line :: rest =>
    match ConstraintTrailer.ofLine? line with
    | some trailer => trailers context (set k trailer) rest
    | none => .error (.malformed (.foreignKeyLine line context))

def read (context : String) (name : Option String) (lines : List (List Char)) :
    Except Failure ForeignKey := do
  let (columns, rest) ← nameList context lines
  let line := rest.headD []
  let some (refSchema, refTable) := references? line
    | throw (.malformed (.noReferences line context))
  let (refColumns, rest) ← nameList context rest.tail
  trailers context { columns, refSchema, refTable, refColumns, name } rest

end ForeignKeyBody

namespace CheckBody

/-- The lines of a condition, and those behind the line that ends it. -/
def condition : List (List Char) → List (List Char) × List (List Char)
  | [] => ([], [])
  | line :: rest =>
    if endsCheck line then ([], rest)
    else
      let (code, rest) := condition rest
      (trim line :: code, rest)

/-- Only the trailers that say nothing about referenced rows may follow a condition. -/
def isTrailer (line : List Char) : Bool :=
  match ConstraintTrailer.ofLine? line with
  | some (.enforced _) => true
  | some .optimization => true
  | _ => false

def read (context : String) (name : Option String) (lines : List (List Char)) :
    Except Failure Check := do
  let (code, rest) := condition lines
  if let some line := rest.find? fun line => !isTrailer line then
    throw (.malformed (.checkLine line context))
  let text := trim ([' '].intercalate code)
  if text.isEmpty then throw (.malformed (.checkEmpty context))
  return ⟨.ofList text, name⟩

end CheckBody

namespace IndexBody

/-- The columns of an `INCLUDE` list, if one comes next. -/
def included (context : String) (lines : List (List Char)) :
    Except Failure (List String × List (List Char)) :=
  match lines with
  | [] => .ok ([], [])
  | line :: rest =>
    match include? line with
    | some first => nameList (context ++ " INCLUDE") (first :: rest)
    | none => .ok ([], lines)

def read (context : String) (unique : Bool) (indexSchema name : String)
    (lines : List (List Char)) : Except Failure Index := do
  let (columns, rest) ← columnList context true lines
  let (includeColumns, rest) ← included context rest
  if let some line := rest.find? fun line => !IndexTrailer.isLine line then
    throw (.malformed (.indexLine line context))
  return { name, indexSchema, unique, columns, includeColumns }

end IndexBody

namespace AlterBody

/-- A key over the columns on all lines. -/
def key (context : String) (number : Nat) (name : Option String) (lines : List (List Char)) :
    Except Failure Key := do
  let (columns, rest) ← nameList context lines
  if rest.isEmpty then return ⟨columns, name⟩
  else throw (.malformed (.overflow context number rest))

def constraintName : Addition → Option String
  | .primaryKey name => name
  | .unique name => name
  | .foreignKey name => name
  | .check name => name

/-- Adds to a table what the first line announces and the lines behind it describe. -/
def extend (context : String) (number : Nat) (t : Table) (addition : Addition)
    (lines : List (List Char)) : Except Failure Table :=
  match addition with
  | .primaryKey name =>
    (key context number name lines).map fun k => { t with primaryKey := some k }
  | .unique name => (key context number name lines).map fun k => t.addConstraint (.unique k)
  | .foreignKey name =>
    (ForeignKeyBody.read context name lines).map fun k => t.addConstraint (.foreign k)
  | .check name => (CheckBody.read context name lines).map fun c => t.addConstraint (.check c)

def read (context : String) (number : Nat) (t : Table) (lines : List (List Char)) :
    Reading Table :=
  match lines with
  | [] => .malformed t (.changeEmpty context number)
  | line :: rest =>
    match Addition.ofLine? line with
    | none => .malformed t (.changeLine line context)
    | some addition =>
      (Reading.ofExcept t (extend context number t addition rest)).after
        (nameEvents (constraintName addition))

end AlterBody

end SchemaTransfer.Load
