import SchemaTransfer.Catalog.Table

/-!
# The catalog of a dump

A catalog owns its schemas, a schema its tables, and nothing points back to its owner. A schema or
a role exists from its first mention on.
-/
namespace SchemaTransfer

structure Role where
  name : String
  comment : Option String := none
  deriving DecidableEq, Inhabited

structure Tablespace where
  name : String
  paths : List String := []
  deriving DecidableEq, Inhabited

structure Sequence where
  name : String
  increment : Int := 1
  minValue : Option Int := none
  maxValue : Option Int := none
  start : Option Int := none
  cache : Option Int := none
  cycle : Bool := false
  restartWith : Option Int := none
  deriving DecidableEq, Inhabited

/-- The value to restart with, which is never below the minimum. -/
def Sequence.resolvedRestart (s : Sequence) : Option Int :=
  match s.restartWith, s.minValue with
  | some restart, some least => some (if restart < least then least else restart)
  | restart, _ => restart

structure Domain where
  name : String
  baseType : String
  deriving DecidableEq, Inhabited

/-- The current schema and the current path, as the dump sets them. -/
structure Context where
  schema : String := ""
  path : String := ""
  deriving DecidableEq, Inhabited

structure View where
  schema : String
  name : String
  statement : String
  context : Context := {}
  deriving DecidableEq, Inhabited

structure Trigger where
  name : String
  statement : String
  context : Context := {}
  comment : Option String := none
  deriving DecidableEq, Inhabited

/-- A function of the database. -/
structure Routine where
  name : String
  statement : String
  context : Context := {}
  deriving DecidableEq, Inhabited

structure Schema where
  name : String
  authorization : Option String := none
  sequences : Keyed Sequence := .empty
  domains : Keyed Domain := .empty
  tables : Keyed Table := .empty
  triggers : Keyed Trigger := .empty
  /-- The later of several functions of one name have keys of their own. -/
  routines : Keyed Routine := .empty
  /-- Comments on objects that are no declared table, by name. -/
  viewComments : Keyed String := .empty
  /-- Comments on columns of such objects, by object and column. -/
  viewColumnComments : Keyed (Keyed String) := .empty
  deriving DecidableEq, Inhabited

structure Catalog where
  schemas : Keyed Schema := .empty
  roles : Keyed Role := .empty
  tablespaces : Keyed Tablespace := .empty
  /-- In the order of the dump. -/
  views : List View := []
  deriving DecidableEq, Inhabited

namespace Catalog

/-- The schema of a name; one that was not mentioned before is empty. -/
def schema (c : Catalog) (name : String) : Schema := (c.schemas.get? name).getD { name }

/-- Changes a schema, which exists from then on. -/
def modifySchema (c : Catalog) (name : String) (f : Schema → Schema) : Catalog :=
  { c with schemas := c.schemas.insert name (f (c.schema name)) }

def mentionSchema (c : Catalog) (name : String) : Catalog := c.modifySchema name id

def mentionRole (c : Catalog) (name : String) : Catalog :=
  { c with roles := c.roles.insert name ((c.roles.get? name).getD { name }) }

def table? (c : Catalog) (schema name : String) : Option Table := do
  let s ← c.schemas.get? schema
  s.tables.get? name

/-- Puts a table into a schema, instead of the one there. -/
def insertTable (c : Catalog) (schema name : String) (t : Table) : Catalog :=
  c.modifySchema schema fun s => { s with tables := s.tables.insert name t }

/-- Every table with its schema, by the keys of the schemas and then of the tables. -/
def tables (c : Catalog) : List (Schema × Table) :=
  c.schemas.values.flatMap fun s => s.tables.values.map (s, ·)

end Catalog

end SchemaTransfer
