import SchemaTransfer.Dump.Form
import SchemaTransfer.Load.ConstraintBody
import SchemaTransfer.Load.SequenceBody
import SchemaTransfer.Load.TableBody

/-!
# Effects of statements on the catalog

One function for each form. Where a statement fails, the catalog it leaves behind still differs
from the one before it only in the object that the statement names.
-/
namespace SchemaTransfer.Load
open Unicode Dump

/-- The rest of a statement as one text, without the quote that closes it. -/
def commentText (first : List Char) (lines : List (List Char)) : String :=
  let text := trimRight (['\n'].intercalate (first :: lines))
  .ofList (if text.getLast? = some '\'' then text.dropLast else text)

/-- The rest of a statement as one text. The first line counts only if it is not blank. -/
def bodyText (first : List Char) (lines : List (List Char)) : String :=
  let first := trim first
  .ofList (['\n'].intercalate (if first.isEmpty then lines else first :: lines))

/-- The schema of a name as typed by a user, or else the current one. -/
def schemaOr (schema : Option NameToken) (current : String) : String :=
  match schema with
  | some token => if token.name = "" then current else token.name
  | none => current

def createTablespace (c : Catalog) (name : String) (lines : List (List Char)) : Reading Catalog :=
  (TablespaceBody.read ((c.tablespaces.get? name).getD { name }) false lines).map fun t =>
    { c with tablespaces := c.tablespaces.insert name t }

def createRole (c : Catalog) (name : String) (number : Nat) (lines : List (List Char)) :
    Reading Catalog :=
  .expectEnd (c.mentionRole name) "CREATE ROLE" number lines

def commentRole (c : Catalog) (name : String) (text : List Char) (number : Nat)
    (lines : List (List Char)) : Reading Catalog :=
  match c.roles.get? name with
  | none => .unrecognized c (.role name number)
  | some role =>
    .done { c with
      roles := c.roles.insert name { role with comment := some (commentText text lines) } }

/-- An owner becomes a role of the catalog, since a dump may not declare it. -/
def createSchema (c : Catalog) (name : String) (owner : Option String) (number : Nat)
    (lines : List (List Char)) : Reading Catalog :=
  let c := match owner with
    | none => c.mentionSchema name
    | some owner =>
      if owner = "" then c.mentionSchema name
      else (c.modifySchema name fun s => { s with authorization := some owner }).mentionRole owner
  .expectEnd c "CREATE SCHEMA" number lines

def createSequence (c : Catalog) (schema name : String) (lines : List (List Char)) :
    Reading Catalog :=
  (SequenceBody.read (((c.schema schema).sequences.get? name).getD { name }) lines).map fun q =>
    c.modifySchema schema fun s => { s with sequences := s.sequences.insert name q }

def restartSequence (c : Catalog) (schema name : String) (value : List Char) (number : Nat)
    (lines : List (List Char)) : Reading Catalog :=
  match (c.schema schema).sequences.get? name with
  | none => .unrecognized (c.mentionSchema schema) (.sequence schema name number)
  | some q =>
    match integer value with
    | .error failure => .fail (c.mentionSchema schema) failure
    | .ok n =>
      .expectEnd
        (c.modifySchema schema fun s =>
          { s with sequences := s.sequences.insert name { q with restartWith := some n } })
        "ALTER SEQUENCE" number lines

/-- A table that is declared again starts anew. -/
def createTable (c : Catalog) (schema name : String) (number : Nat) (lines : List (List Char)) :
    Reading Catalog :=
  (TableBody.read (TableBody.display schema name) number { table := { name } } lines).map
    fun b => c.insertTable schema name b.table

def alterTable (c : Catalog) (schema name : String) (number : Nat) (lines : List (List Char)) :
    Reading Catalog :=
  match c.table? schema name with
  | none => .unrecognized c (.table schema name number)
  | some t =>
    let r := AlterBody.read ("ALTER TABLE " ++ TableBody.display schema name) number t lines
    { value := match r.outcome with
        | .ok _ => c.insertTable schema name r.value
        | .error _ => c
      events := r.events
      outcome := r.outcome }

def restartIdentity (c : Catalog) (schema owner column : String) (value : List Char)
    (number : Nat) (lines : List (List Char)) : Reading Catalog :=
  match c.table? schema owner with
  | none => .unrecognized c (.table schema owner number)
  | some t =>
    match (t.column? column).bind (·.identity) with
    | none => .unrecognized c (.identity schema owner column number)
    | some identity =>
      match integer value with
      | .error failure => .fail c failure
      | .ok n =>
        let restarted := some { identity with start := some n }
        .expectEnd
          (c.insertTable schema owner
            (t.modifyColumn column fun k => { k with identity := restarted }))
          "ALTER TABLE ... RESTART WITH" number lines

/-- An index belongs to its table, whatever its own schema is. -/
def createIndex (c : Catalog) (unique : Bool) (indexSchema name schema owner : String)
    (number : Nat) (lines : List (List Char)) : Reading Catalog :=
  match c.table? schema owner with
  | none => .unrecognized c (.table schema owner number)
  | some t =>
    let context := "CREATE INDEX " ++ TableBody.display indexSchema name
    .ofExcept c <| (IndexBody.read context unique indexSchema name lines).map fun index =>
      c.insertTable schema owner { t with indexes := t.indexes.insert name index }

/-- A comment on a column of something that is no declared table is kept for a view. -/
def commentColumn (c : Catalog) (schema owner column : String) (text : List Char)
    (number : Nat) (lines : List (List Char)) : Reading Catalog :=
  let text := commentText text lines
  match c.table? schema owner with
  | none =>
    .done <| c.modifySchema schema fun s =>
      let ofView := (s.viewColumnComments.get? owner).getD .empty
      { s with viewColumnComments := s.viewColumnComments.insert owner (ofView.insert column text) }
  | some t =>
    match t.column? column with
    | none => .unrecognized c (.column schema owner column number)
    | some _ =>
      .done <| c.insertTable schema owner
        (t.modifyColumn column fun k => { k with comment := some text })

def commentTable (c : Catalog) (schema name : String) (text : List Char)
    (lines : List (List Char)) : Reading Catalog :=
  let text := commentText text lines
  match c.table? schema name with
  | none =>
    .done <| c.modifySchema schema fun s =>
      { s with viewComments := s.viewComments.insert name text }
  | some t => .done (c.insertTable schema name { t with comment := some text })

/-- A distinct type over a built-in type. -/
def createDomain (c : Catalog) (schema name : String) (base : List Char) (number : Nat)
    (lines : List (List Char)) : Reading Catalog :=
  match TypeName.convert (base.filter (· != '"')) with
  | .error failure => .fail (c.mentionSchema schema) failure
  | .ok (baseType, notices) =>
    (Reading.expectEnd
      (c.modifySchema schema fun s =>
        { s with domains := s.domains.insert name { name, baseType } })
      "CREATE DISTINCT TYPE" number lines).after (notices.map .notice)

def createView (c : Catalog) (context : Context) (schema : Option NameToken) (name : NameToken)
    (first : List Char) (lines : List (List Char)) : Reading Catalog :=
  .done { c with
    views := c.views ++
      [{ schema := schemaOr schema context.schema, name := name.name,
         statement := bodyText first lines, context }] }

def createTrigger (c : Catalog) (context : Context) (schema : Option NameToken)
    (name : NameToken) (first : List Char) (lines : List (List Char)) : Reading Catalog :=
  .done <| c.modifySchema (schemaOr schema context.schema) fun s =>
    { s with
      triggers := s.triggers.insert name.name
        { name := name.name, statement := bodyText first lines, context } }

def commentTrigger (c : Catalog) (schema name : String) (text : List Char) (number : Nat)
    (lines : List (List Char)) : Reading Catalog :=
  match (c.schema schema).triggers.get? name with
  | none => .unrecognized (c.mentionSchema schema) (.trigger schema name number)
  | some t =>
    let commented := { t with comment := some (commentText text lines) }
    .done <| c.modifySchema schema fun s =>
      { s with triggers := s.triggers.insert name commented }

/-- The key of the `count`-th function of a name. -/
def overloadKey (name : String) (count : Nat) : String :=
  if count = 1 then name else name ++ "_" ++ count.repr

/-- The first number whose key is free. -/
def overloadCount (routines : Keyed Routine) (name : String) : Nat :=
  (((List.range (routines.size + 1)).map (· + 1)).find? fun k =>
    !routines.contains (overloadKey name k)).getD 1

/-- Another function of the same name is kept under a key of its own. -/
def createFunction (c : Catalog) (context : Context) (schema : Option NameToken)
    (name : NameToken) (first : List Char) (lines : List (List Char)) : Reading Catalog :=
  let schema := schemaOr schema context.schema
  let count := overloadCount (c.schema schema).routines name.name
  let notices := if count = 1 then [] else [Notice.overloaded schema name.name count]
  (Reading.done (c.modifySchema schema fun s =>
    { s with
      routines := s.routines.insert (overloadKey name.name count)
        { name := name.name, statement := bodyText first lines, context } })).after
    (notices.map .notice)

end SchemaTransfer.Load
