import SchemaTransfer.Keyed

/-!
# Tables and what belongs to them
-/
namespace SchemaTransfer

/-- The sequence behind an identity column; options that were not written are `none`. -/
structure Identity where
  always : Bool := false
  start : Option Int := none
  increment : Option Int := none
  minValue : Option Int := none
  maxValue : Option Int := none
  cache : Option Int := none
  cycle : Bool := false
  order : Bool := false
  deriving DecidableEq, Inhabited

inductive Default
  /-- `WITH DEFAULT` without a value: the value depends on the type. -/
  | implicit
  | text (text : String)
  deriving DecidableEq, Inhabited

/-- An empty text stands for the implicit default. -/
def Default.ofText (s : String) : Default := if s = "" then .implicit else .text s

structure Column where
  name : String
  /-- The type in the target's spelling. -/
  type : String
  /-- The type as the dump writes it. -/
  dumpType : String
  position : Int
  notNull : Bool := false
  default : Option Default := none
  identity : Option Identity := none
  comment : Option String := none
  deriving DecidableEq, Inhabited

/-- A primary key or a unique constraint. -/
structure Key where
  columns : List String
  name : Option String := none
  deriving DecidableEq, Inhabited

structure ForeignKey where
  columns : List String
  refSchema : String
  refTable : String
  refColumns : List String
  name : Option String := none
  onDelete : Option String := none
  onUpdate : Option String := none
  enforced : Bool := true
  deriving DecidableEq, Inhabited

structure Check where
  condition : String
  name : Option String := none
  deriving DecidableEq, Inhabited

inductive Constraint
  | unique (key : Key)
  | foreign (key : ForeignKey)
  | check (check : Check)
  deriving DecidableEq, Inhabited

structure IndexColumn where
  name : String
  /-- `ASC` or `DESC` where the dump gives it. -/
  direction : Option String := none
  deriving DecidableEq, Inhabited

structure Index where
  name : String
  indexSchema : String
  unique : Bool := false
  columns : List IndexColumn := []
  includeColumns : List String := []
  deriving DecidableEq, Inhabited

structure Table where
  name : String
  columns : List Column := []
  primaryKey : Option Key := none
  constraints : List Constraint := []
  indexes : Keyed Index := .empty
  comment : Option String := none
  tablespace : Option String := none
  indexTablespace : Option String := none
  longTablespace : Option String := none
  deriving DecidableEq, Inhabited

namespace Table

/-- The column takes the next position. -/
def addColumn (t : Table) (c : Column) : Table :=
  { t with columns := t.columns ++ [{ c with position := t.columns.length + 1 }] }

/-- The first column of a name. -/
def column? (t : Table) (name : String) : Option Column := t.columns.find? (·.name = name)

def modifyNamed (name : String) (f : Column → Column) : List Column → List Column
  | [] => []
  | c :: cs => if c.name = name then f c :: cs else c :: modifyNamed name f cs

/-- Changes the first column of a name. -/
def modifyColumn (t : Table) (name : String) (f : Column → Column) : Table :=
  { t with columns := modifyNamed name f t.columns }

def addConstraint (t : Table) (c : Constraint) : Table :=
  { t with constraints := t.constraints ++ [c] }

def uniqueKeys (t : Table) : List Key :=
  t.constraints.filterMap fun | .unique k => some k | _ => none

def foreignKeys (t : Table) : List ForeignKey :=
  t.constraints.filterMap fun | .foreign k => some k | _ => none

def checks (t : Table) : List Check :=
  t.constraints.filterMap fun | .check c => some c | _ => none

/-- The columns by position; columns of one position keep their order. -/
def sortedColumns (t : Table) : List Column :=
  t.columns.mergeSort fun a b => a.position ≤ b.position

end Table

end SchemaTransfer
