import SchemaTransfer.Target.Emission
import SchemaTransfer.Target.ForeignKeyName

/-!
# The script to run after the data is loaded

Keys, indexes, foreign keys that are not checked yet, and identities. Each of the four goes over
all tables before the next begins, so the names of keys are given out before those of indexes.
-/
namespace SchemaTransfer.After
open Emit

/-- The tablespace for the indexes of a table. -/
def indexTablespace (withTablespaces : Bool) (t : Table) : Option String :=
  if withTablespaces then given t.indexTablespace else none

/-- The name that a key gets in the target, if it had one. -/
def keyName (s : Schema) (k : Key) (kind : String) : Emit (Option String) := do
  match given k.name with
  | some name => return some (← resolve s.name name kind)
  | none => return none

def primaryKey (withTablespaces : Bool) (s : Schema) (t : Table) (k : Key) : Emit Script := do
  let name ← keyName s k "pk"
  count fun t => { t with primaryKeys := t.primaryKeys + 1 }
  return [.addPrimaryKey ⟨s.name, t.name⟩ name k.columns (indexTablespace withTablespaces t)]

def uniqueKey (withTablespaces : Bool) (s : Schema) (t : Table) (k : Key) : Emit Script := do
  let name ← keyName s k "unique"
  count fun t => { t with uniqueConstraints := t.uniqueConstraints + 1 }
  return [.addUnique ⟨s.name, t.name⟩ name k.columns (indexTablespace withTablespaces t)]

def keys (withTablespaces : Bool) (e : Schema × Table) : Emit Script := do
  let primary ← each (primaryKey withTablespaces e.1 e.2) e.2.primaryKey.toList
  let unique ← each (uniqueKey withTablespaces e.1 e.2) e.2.uniqueKeys
  return primary ++ unique

def countIndex : Emit Unit := count fun t => { t with indexes := t.indexes + 1 }

/-- Columns that were only included in an index become columns of the index. Where that would
weaken a unique index, a second index holds them. -/
def index (withTablespaces : Bool) (s : Schema) (t : Table) (i : Index) : Emit Script := do
  let table : TableName := ⟨s.name, t.name⟩
  let tablespace := indexTablespace withTablespaces t
  let all := i.columns ++ i.includeColumns.map fun c => { name := c }
  let name ← resolve s.name i.name "index"
  countIndex
  if i.includeColumns.isEmpty then
    return [.createIndex i.unique name table i.columns tablespace]
  else if i.unique then
    let covering ← resolve s.name (i.name ++ "_cov1") "index"
    notice (.uniqueCovering s.name i.name name covering)
    countIndex
    return [.createIndex true name table i.columns tablespace,
      .createIndex false covering table all tablespace]
  else
    notice (.covering s.name i.name)
    return [.createIndex false name table all tablespace]

def indexes (withTablespaces : Bool) (e : Schema × Table) : Emit Script :=
  each (index withTablespaces e.1 e.2) e.2.indexes.values

def foreignKey (s : Schema) (t : Table) (k : ForeignKey × String) : Emit Script := do
  if !k.1.enforced then
    notice (.notEnforced k.2 s.name t.name)
  count fun t => { t with foreignKeys := t.foreignKeys + 1 }
  return [.addForeignKey ⟨s.name, t.name⟩ k.2 k.1]

def foreignKeys (e : Schema × Table) : Emit Script :=
  each (foreignKey e.1 e.2) e.2.namedForeignKeys

def options (i : Identity) : SequenceOptions :=
  { increment := i.increment, minValue := i.minValue, maxValue := i.maxValue, start := i.start,
    cache := i.cache, cycle := i.cycle }

def identityNotices (column : String) (i : Identity) : List Notice :=
  (if i.order then [.ordered column] else []) ++ if i.always then [.alwaysIdentity column] else []

/-- An identity becomes a sequence that gives the column its default value and goes on behind the
values that were loaded. -/
def identity (s : Schema) (t : Table) (c : Column) : Emit Script := do
  match c.identity with
  | none => return []
  | some i =>
    (identityNotices (s.name ++ "." ++ t.name ++ "." ++ c.name) i).forM notice
    let table : TableName := ⟨s.name, t.name⟩
    let name ← resolve s.name (t.name ++ "_" ++ c.name ++ "_seq") "sequence"
    count fun t => { t with identities := t.identities + 1 }
    return [.createSequence s.name name (options i) (some (table, c.name)),
      .setDefault table c.name s.name name, .setValue table c.name s.name name]

def identities (e : Schema × Table) : Emit Script := each (identity e.1 e.2) e.2.sortedColumns

end After

open Emit in
/-- The script with everything that is easier to add once the data is there. -/
def emitAfter (withTablespaces : Bool) (c : Catalog) : Emit Script := do
  let keys ← each (After.keys withTablespaces) c.tables
  let indexes ← each (After.indexes withTablespaces) c.tables
  let foreignKeys ← each After.foreignKeys c.tables
  let identities ← each After.identities c.tables
  return [.clientEncoding, .blank] ++ keys ++ indexes ++ foreignKeys ++ identities

end SchemaTransfer
