import SchemaTransfer.Target.Emission
import SchemaTransfer.Target.Expression

/-!
# The script to run before the data is loaded

Tablespaces, roles, schemas, sequences, domains, and tables with their comments, each kind in the
order of the keys. Only a table can fail, by a column whose type has no implicit default; the names
and numbers given out up to there remain.
-/
namespace SchemaTransfer.Before
open Emit

def tablespace (entry : String × Tablespace) : Emit Script := do
  match entry.2.paths with
  | [] =>
    notice (.noContainer entry.1)
    return []
  | path :: _ =>
    count fun t => { t with tablespaces := t.tablespaces + 1 }
    return [.createTablespace entry.1 path]

def role (entry : String × Role) : Emit Script := do
  count fun t => { t with roles := t.roles + 1 }
  return .createRole entry.1 :: (entry.2.comment.map (Item.commentRole entry.1)).toList

def schema (s : Schema) : Emit Script := do
  count fun t => { t with schemas := t.schemas + 1 }
  return [.createSchema s.name (given s.authorization)]

/-- The options of a sequence; its increment is always written. -/
def options (q : Sequence) : SequenceOptions :=
  { increment := some q.increment, minValue := q.minValue, maxValue := q.maxValue,
    start := q.start, cache := q.cache, cycle := q.cycle }

/-- The notice on a restart that had to be raised to the minimum. -/
def restartNotice (s : Schema) (q : Sequence) : List Notice :=
  match q.restartWith, q.minValue with
  | some restart, some least =>
    if restart < least then [.restartBelowMinimum s.name q.name restart least least] else []
  | _, _ => []

def sequence (s : Schema) (q : Sequence) : Emit Script := do
  let name ← resolve s.name q.name "sequence"
  (restartNotice s q).forM notice
  count fun t => { t with sequences := t.sequences + 1 }
  return .createSequence s.name name (options q) none ::
    (q.resolvedRestart.map (Item.restartSequence s.name name)).toList

def domain (s : Schema) (entry : String × Domain) : Emit Script := do
  count fun t => { t with domains := t.domains + 1 }
  return [.createDomain s.name entry.1 entry.2.baseType]

def column (c : Column) : Except Failure ColumnItem :=
  c.defaultValue?.map fun default =>
    { name := c.name, type := c.type, default, notNull := c.notNull }

/-- The columns by position; the first one that fails stops the others. -/
def columns : List Column → Except Failure (List ColumnItem)
  | [] => .ok []
  | c :: rest => do
    let item ← column c
    let items ← columns rest
    return item :: items

def comments (table : TableName) (t : Table) : Script :=
  (t.comment.map (Item.commentTable table)).toList ++
    t.sortedColumns.flatMap fun c => (c.comment.map (Item.commentColumn table c.name)).toList

def table (withTablespaces : Bool) (s : Schema) (t : Table) : Except Failure Script :=
  let name : TableName := ⟨s.name, t.name⟩
  let tablespace := if withTablespaces then given t.tablespace else none
  (columns t.sortedColumns).map fun items =>
    .createTable name items tablespace :: comments name t ++ [.blank]

def tables (withTablespaces : Bool) : List (Schema × Table) → Emit (Except Failure Script)
  | [] => pure (.ok [])
  | (s, t) :: rest => do
    match table withTablespaces s t with
    | .error failure => return .error failure
    | .ok items =>
      count fun t => { t with tables := t.tables + 1 }
      let more ← tables withTablespaces rest
      return more.map (items ++ ·)

def tablespaces (withTablespaces : Bool) (c : Catalog) : Emit Script := do
  if withTablespaces then
    return (← each tablespace c.tablespaces.entries) ++ [.blank]
  else
    return []

/-- Everything ahead of the tables. -/
def preamble (withTablespaces : Bool) (c : Catalog) : Emit Script := do
  let tablespaces ← tablespaces withTablespaces c
  let roles ← each role c.roles.entries
  let schemas ← each schema c.schemas.values
  let sequences ← each (fun s => each (sequence s) s.sequences.values) c.schemas.values
  let domains ← each (fun s => each (domain s) s.domains.entries) c.schemas.values
  return [.clientEncoding, .blank] ++ tablespaces ++ roles ++ [.blank] ++ schemas ++ [.blank] ++
    sequences ++ domains ++ [.blank]

end Before

/-- The script with everything that has to exist before the data. -/
def emitBefore (withTablespaces : Bool) (c : Catalog) : Emit (Except Failure Script) := do
  let preamble ← Before.preamble withTablespaces c
  let tables ← Before.tables withTablespaces c.tables
  return tables.map (preamble ++ ·)

end SchemaTransfer
