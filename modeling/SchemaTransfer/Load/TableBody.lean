import SchemaTransfer.Dump.ColumnLine
import SchemaTransfer.Dump.TableLine
import SchemaTransfer.Load.Reading
import SchemaTransfer.Target.TypeName

/-!
# The lines of a table

The lines are read one by one. The options of an identity column take over from the line of the
column until `ORDER` is met; the storage of a table may stand on any line that is none of the
column list.
-/
namespace SchemaTransfer.Load
open Unicode Dump

/-- The part of a table that the next line belongs to. -/
inductive TablePart
  | columns
  /-- The options of the last column's identity, as far as they have been read. -/
  | identity (identity : Identity)
  | storage
  deriving DecidableEq, Inhabited

structure TableBody where
  table : Table
  part : TablePart := .columns
  deriving DecidableEq, Inhabited

namespace TableBody

/-- The name of a table in messages. -/
def display (schema name : String) : String := schema ++ "." ++ name

/-- The name of the last column in messages about its identity. -/
def identityDisplay (shown : String) (t : Table) : String :=
  shown ++ "." ++ ((t.columns.getLast?).map (·.name)).getD ""

def generatedNotices (column table : String) (always : Bool) : List Notice :=
  (if always then [.generatedAlways column table] else []) ++ [.generatedDefault column table]

/-- The default value of a generated column is its expression. -/
def generatedDefault (expression : List Char) : Default :=
  .ofText (.ofList (trim expression))

/-- The default of a column and the part that its line leads to. -/
def clauseEffect (c : ColumnLine) : Option Default × TablePart :=
  let next := if c.closes then TablePart.storage else .columns
  match c.clause with
  | .nothing => (none, next)
  | .implicitDefault => (some .implicit, next)
  | .default text => (some (.ofText (.ofList text)), next)
  | .identity always => (none, .identity { always })
  | .generated _ expression => (some (generatedDefault expression), next)

def clauseNotices (shown : String) (c : ColumnLine) : List Notice :=
  match c.clause with
  | .generated always _ => generatedNotices c.name shown always
  | _ => []

/-- The type and the default of a column line, as far as they are known to be of no known form. -/
def columnFault? (shown : String) (c : ColumnLine) : Option Malformed :=
  if !ColumnLine.isType c.type then some (.columnType c.type c.name shown)
  else
    match c.clause with
    | .default text =>
      if ColumnLine.isDefault (trim text) then none
      else some (.columnDefault text c.name shown)
    | _ => none

/-- Declares a column. Its name counts as met even if the type cannot be converted. -/
def addColumn (shown : String) (b : TableBody) (c : ColumnLine) :
    TableBody × List Event × Option Failure :=
  match columnFault? shown c with
  | some fault => (b, [], some (.malformed fault))
  | none =>
    match TypeName.convert c.type with
    | .error failure => (b, [.name c.name], some failure)
    | .ok (type, notices) =>
      let (default, part) := clauseEffect c
      let column : Column :=
        { name := c.name, type, dumpType := .ofList c.type, position := 0, notNull := c.notNull,
          default }
      (⟨b.table.addColumn column, part⟩,
        .name c.name :: (notices ++ clauseNotices shown c).map .notice, none)

/-- Gives the last column its identity. -/
def closeIdentity (t : Table) (identity : Identity) : Table :=
  match t.columns.getLast? with
  | some c => { t with columns := t.columns.dropLast ++ [{ c with identity := some identity }] }
  | none => t

/-- A tablespace that a line does not name, or names by an empty text, stays as it was. -/
def place (new old : Option String) : Option String :=
  match new with
  | some name => if name = "" then old else some name
  | none => old

def store (t : Table) (s : Storage) : Table :=
  { t with
    tablespace := place s.tablespace t.tablespace
    indexTablespace := place s.indexTablespace t.indexTablespace
    longTablespace := place s.longTablespace t.longTablespace }

/-- An option of an identity; `ORDER` ends the options, and with it comes whether the line closes
the list of columns. -/
def setOption (identity : Identity) :
    IdentityClause → Except Failure (Identity × Option Bool)
  | .start value => (integer value).map fun n => ({ identity with start := some n }, none)
  | .increment value => (integer value).map fun n => ({ identity with increment := some n }, none)
  | .minValue value => (integer value).map fun n => ({ identity with minValue := some n }, none)
  | .maxValue value => (integer value).map fun n => ({ identity with maxValue := some n }, none)
  | .cycle on => .ok ({ identity with cycle := on }, none)
  | .cache none => .ok ({ identity with cache := some 1 }, none)
  | .cache (some digits) =>
    (integer digits).map fun n => ({ identity with cache := some n }, none)
  | .order on closes => .ok ({ identity with order := on }, some closes)

def identityLine (shown : String) (b : TableBody) (identity : Identity) (line : List Char) :
    TableBody × List Event × Option Failure :=
  match IdentityClause.ofLine? line with
  | none => (b, [], some (.malformed (.identityLine line (identityDisplay shown b.table))))
  | some clause =>
    match setOption identity clause with
    | .error failure => (b, [], some failure)
    | .ok (identity, none) => ({ b with part := .identity identity }, [], none)
    | .ok (identity, some closes) =>
      (⟨closeIdentity b.table identity, if closes then .storage else .columns⟩, [], none)

def storageLine (shown : String) (number : Nat) (b : TableBody) (line : List Char) :
    TableBody × List Event × Option Failure :=
  match Storage.ofLine? line with
  | some storage => ({ b with table := store b.table storage }, [], none)
  | none => (b, [], some (.malformed (.tableLine line shown number)))

/-- Reads one line. `number` is that of the statement. -/
def step (shown : String) (number : Nat) (b : TableBody) (line : List Char) :
    TableBody × List Event × Option Failure :=
  match b.part with
  | .identity identity => identityLine shown b identity line
  | .storage => storageLine shown number b line
  | .columns =>
    match ColumnLine.ofLine? line with
    | some c => addColumn shown b c
    | none =>
      if closesColumns line then ({ b with part := .storage }, [], none)
      else storageLine shown number b line

/-- What is wrong when no line is left. -/
def endFault? (shown : String) (number : Nat) (b : TableBody) : Option Malformed :=
  match b.part with
  | .identity _ => some (.identityUnterminated (identityDisplay shown b.table))
  | _ => if b.table.columns.isEmpty then some (.noColumns shown number) else none

def read (shown : String) (number : Nat) (b : TableBody) :
    List (List Char) → Reading TableBody
  | [] =>
    match endFault? shown number b with
    | some fault => .malformed b fault
    | none => .done b
  | line :: rest =>
    match step shown number b line with
    | (b, events, none) => (read shown number b rest).after events
    | (b, events, some failure) => ⟨b, events, .error failure⟩

end TableBody

end SchemaTransfer.Load
