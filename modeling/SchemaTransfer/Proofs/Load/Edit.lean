import SchemaTransfer.Load.Session
import SchemaTransfer.Proofs.Catalog.Edit
import SchemaTransfer.Proofs.Load.Body
import SchemaTransfer.Proofs.Load.TableLine
import SchemaTransfer.Target.Script

/-!
# Statements as edits

What a statement that does not fail does to a catalog is a list of edits. They depend on the
statement's form, the lines behind its first, and, for what is created by a user's text, on the
current schema and path, but not on where the statement stands in the dump.
-/
namespace SchemaTransfer.Load
open Unicode Dump

/-- What was built, unless the reading failed. -/
def Reading.result? {α : Type} (r : Reading α) : Option α :=
  match r.outcome with
  | .ok _ => some r.value
  | .error _ => none

theorem value_of_result? {α : Type} {r : Reading α} {a : α} (h : Reading.result? r = some a) :
    r.value = a := by
  unfold Reading.result? at h
  split at h
  · exact Option.some.inj h
  · cases h

/-- A value that is good only if no line is left. -/
def ended {α : Type} (rest : List (List Char)) (a : α) : Option α :=
  if rest.isEmpty then some a else none

section

open Reading

variable {α β : Type}

theorem result?_expectEnd (value : α) (statement : String) (number : Nat)
    (rest : List (List Char)) :
    (expectEnd value statement number rest).result? = ended rest value := by
  unfold expectEnd ended
  split <;> rfl

theorem result?_map (f : α → β) (r : Reading α) : (r.map f).result? = r.result?.map f := by
  unfold Reading.result? Reading.map
  dsimp only
  cases r.outcome <;> rfl

theorem result?_after (events : List Event) (r : Reading α) :
    (r.after events).result? = r.result? := rfl

theorem result?_ofExcept (value : α) (result : Except Failure α) :
    (ofExcept value result).result? = result.toOption := by
  cases result <;> rfl

theorem ended_map (rest : List (List Char)) (a : α) (f : α → β) :
    (ended rest a).map f = ended rest (f a) := by
  unfold ended
  split <;> rfl

theorem toOption_map (f : α → β) (x : Except Failure α) :
    (x.map f).toOption = x.toOption.map f := by
  cases x <;> rfl

end

/-- A change to a table that has to be there. -/
def onTable (change : Table → Option Table) (r : Relation) : Option Relation :=
  r.table.bind fun t => (change t).map fun t => { table := some t }

def alterEdit (context : String) (rest : List (List Char)) (t : Table) : Option Table :=
  (AlterBody.read context 0 t rest).result?

def restartEdit (column : String) (value : List Char) (rest : List (List Char)) (t : Table) :
    Option Table := do
  let identity ← (t.column? column).bind (·.identity)
  let n ← (integer value).toOption
  let restarted := some { identity with start := some n }
  ended rest (t.modifyColumn column fun k => { k with identity := restarted })

def indexEdit (unique : Bool) (indexSchema name : String) (rest : List (List Char)) (t : Table) :
    Option Table :=
  let context := "CREATE INDEX " ++ TableBody.display indexSchema name
  (IndexBody.read context unique indexSchema name rest).toOption.map fun index =>
    { t with indexes := t.indexes.insert name index }

def columnCommentEdit (column text : String) (r : Relation) : Option Relation :=
  match r.table with
  | none => some { columnComments := some ((r.columnComments.getD .empty).insert column text) }
  | some t => (t.column? column).map fun _ =>
    { table := some (t.modifyColumn column fun k => { k with comment := some text }) }

def commentEdit (text : String) (r : Relation) : Option Relation :=
  match r.table with
  | none => some { comment := some text }
  | some t => some { table := some { t with comment := some text } }

def restartSequenceEdit (value : List Char) (rest : List (List Char)) (q : Option Sequence) :
    Option (Option Sequence) := do
  let q ← q
  let n ← (integer value).toOption
  ended rest (some { q with restartWith := some n })

def createSchemaEdits (name : String) (rest : List (List Char)) : Option String → List Edit
  | none => [⟨.part name .owner, fun _ => ended rest (none : Option String)⟩]
  | some owner =>
    [⟨.part name .owner, fun _ => some (some owner)⟩,
      ⟨.role owner, fun r : Option Role => ended rest (some (r.getD { name := owner }))⟩]

def domainEdit (name : String) (base : List Char) (rest : List (List Char)) :
    Option (Option Domain) :=
  (TypeName.convert (base.filter (· != '"'))).toOption.bind fun r =>
    ended rest (some { name, baseType := r.1 })

/-- What a statement of a form comes down to, given the lines behind the first. -/
def edits (context : Context) (rest : List (List Char)) : Form → List Edit
  | .ignored => []
  | .createTablespace name =>
    [⟨.tablespace name, fun t : Option Tablespace =>
      (TablespaceBody.read (t.getD { name }) false rest).result?.map some⟩]
  | .createRole name =>
    [⟨.role name, fun r : Option Role => ended rest (some (r.getD { name }))⟩]
  | .commentRole name text =>
    [⟨.role name, fun r : Option Role =>
      r.map fun r => some { r with comment := some (commentText text rest) }⟩]
  | .createSchema name owner => createSchemaEdits name rest (given owner)
  | .createSequence schema name =>
    [⟨.part schema (.sequence name), fun q : Option Sequence =>
      (SequenceBody.read (q.getD { name }) rest).result?.map some⟩]
  | .restartSequence schema name value =>
    [⟨.part schema (.sequence name), restartSequenceEdit value rest⟩]
  | .createTable schema name =>
    [⟨.relation schema name, fun _ =>
      (TableBody.read (TableBody.display schema name) 0 { table := { name } } rest).result?.map
        fun b => ({ table := some b.table } : Relation)⟩]
  | .alterTable schema name =>
    [⟨.relation schema name,
      onTable (alterEdit ("ALTER TABLE " ++ TableBody.display schema name) rest)⟩]
  | .restartIdentity schema owner column value =>
    [⟨.relation schema owner, onTable (restartEdit column value rest)⟩]
  | .createIndex unique indexSchema name schema owner =>
    [⟨.relation schema owner, onTable (indexEdit unique indexSchema name rest)⟩]
  | .commentColumn schema owner column text =>
    [⟨.relation schema owner, columnCommentEdit column (commentText text rest)⟩]
  | .commentTable schema name text =>
    [⟨.relation schema name, commentEdit (commentText text rest)⟩]
  | .createDomain schema name base =>
    [⟨.part schema (.domain name), fun _ => domainEdit name base rest⟩]
  | .setSchema _ => []
  | .setPath _ => []
  | .createView schema name first =>
    [⟨.views, fun vs : List View => some (vs ++
      [{ schema := schemaOr schema context.schema, name := name.name,
         statement := bodyText first rest, context }])⟩]
  | .createTrigger schema name first =>
    [⟨.part (schemaOr schema context.schema) (.trigger name.name), fun _ =>
      some (some ({ name := name.name, statement := bodyText first rest, context } : Trigger))⟩]
  | .commentTrigger schema name text =>
    [⟨.part schema (.trigger name), fun t : Option Trigger =>
      t.map fun t => some { t with comment := some (commentText text rest) }⟩]
  | .createFunction schema name first =>
    [⟨.part (schemaOr schema context.schema) .routines, fun rs : Keyed Routine =>
      some (rs.insert (overloadKey name.name (overloadCount rs name.name))
        { name := name.name, statement := bodyText first rest, context })⟩]

theorem step_number (shown : String) (m n : Nat) (b : TableBody) (line : List Char) :
    (TableBody.step shown m b line).1 = (TableBody.step shown n b line).1 ∧
      (TableBody.step shown m b line).2.2.isSome = (TableBody.step shown n b line).2.2.isSome := by
  have hstorage : (TableBody.storageLine shown m b line).1 =
        (TableBody.storageLine shown n b line).1 ∧
      (TableBody.storageLine shown m b line).2.2.isSome =
        (TableBody.storageLine shown n b line).2.2.isSome := by
    unfold TableBody.storageLine
    cases Storage.ofLine? line <;> exact ⟨rfl, rfl⟩
  unfold TableBody.step
  cases b.part with
  | identity identity => exact ⟨rfl, rfl⟩
  | storage => exact hstorage
  | columns =>
    dsimp only
    cases ColumnLine.ofLine? line with
    | some c => exact ⟨rfl, rfl⟩
    | none =>
      dsimp only
      split
      · exact ⟨rfl, rfl⟩
      · exact hstorage

theorem table_read_cons (shown : String) (n : Nat) (b : TableBody) (line : List Char)
    (rest : List (List Char)) : (TableBody.read shown n b (line :: rest)).result? =
      if (TableBody.step shown n b line).2.2.isSome then none
      else (TableBody.read shown n (TableBody.step shown n b line).1 rest).result? := by
  rw [TableBody.read]
  obtain ⟨b', events, failure⟩ := TableBody.step shown n b line
  cases failure <;> rfl

theorem table_read_number (shown : String) (m n : Nat) (b : TableBody)
    (rest : List (List Char)) :
    (TableBody.read shown m b rest).result? = (TableBody.read shown n b rest).result? := by
  induction rest generalizing b with
  | nil =>
    rw [TableBody.read, TableBody.read]
    unfold TableBody.endFault?
    cases b.part with
    | identity identity => rfl
    | columns => cases b.table.columns.isEmpty <;> rfl
    | storage => cases b.table.columns.isEmpty <;> rfl
  | cons line rest ih =>
    obtain ⟨hsame, hfails⟩ := step_number shown m n b line
    rw [table_read_cons, table_read_cons, hsame, hfails, ih]

theorem key_number (context : String) (m n : Nat) (name : Option String)
    (lines : List (List Char)) :
    (AlterBody.key context m name lines).toOption =
      (AlterBody.key context n name lines).toOption := by
  rw [key_eq, key_eq]
  cases nameList context lines with
  | error failure => rfl
  | ok r =>
    show (keyFrom context m name r.1 r.2).toOption = (keyFrom context n name r.1 r.2).toOption
    unfold keyFrom
    split <;> rfl

theorem extend_number (context : String) (m n : Nat) (t : Table) (addition : Addition)
    (lines : List (List Char)) : (AlterBody.extend context m t addition lines).toOption =
      (AlterBody.extend context n t addition lines).toOption := by
  cases addition with
  | primaryKey name =>
    simp only [AlterBody.extend, toOption_map]
    rw [key_number context m n]
  | unique name =>
    simp only [AlterBody.extend, toOption_map]
    rw [key_number context m n]
  | foreignKey name => rfl
  | check name => rfl

theorem alter_read_number (context : String) (m n : Nat) (t : Table) (lines : List (List Char)) :
    (AlterBody.read context m t lines).result? = (AlterBody.read context n t lines).result? := by
  unfold AlterBody.read
  cases lines with
  | nil => rfl
  | cons line rest =>
    dsimp only
    cases Addition.ofLine? line with
    | none => rfl
    | some addition =>
      dsimp only
      rw [result?_after, result?_after, result?_ofExcept, result?_ofExcept,
        extend_number context m n]

/-- What a change of a table adds to it. -/
inductive Added
  | primaryKey (key : Key)
  | constraint (c : Constraint)

def Added.to (t : Table) : Added → Table
  | primaryKey key => { t with primaryKey := some key }
  | constraint c => t.addConstraint c

/-- What is added, if anything, does not depend on the table. -/
theorem exists_added (context : String) (rest : List (List Char)) :
    ∃ added : Option Added, ∀ t, alterEdit context rest t = added.map (Added.to t) := by
  unfold alterEdit AlterBody.read
  cases rest with
  | nil => exact ⟨none, fun t => rfl⟩
  | cons line rest =>
    dsimp only
    cases Addition.ofLine? line with
    | none => exact ⟨none, fun t => rfl⟩
    | some addition =>
      simp only [result?_after, result?_ofExcept]
      cases addition with
      | primaryKey name =>
        refine ⟨(AlterBody.key context 0 name rest).toOption.map .primaryKey, fun t => ?_⟩
        rw [AlterBody.extend, toOption_map, Option.map_map]
        rfl
      | unique name =>
        refine ⟨(AlterBody.key context 0 name rest).toOption.map fun k => .constraint (.unique k),
          fun t => ?_⟩
        rw [AlterBody.extend, toOption_map, Option.map_map]
        rfl
      | foreignKey name =>
        refine ⟨(ForeignKeyBody.read context name rest).toOption.map
          fun k => .constraint (.foreign k), fun t => ?_⟩
        rw [AlterBody.extend, toOption_map, Option.map_map]
        rfl
      | check name =>
        refine ⟨(CheckBody.read context name rest).toOption.map
          fun k => .constraint (.check k), fun t => ?_⟩
        rw [AlterBody.extend, toOption_map, Option.map_map]
        rfl

section

variable (c : Catalog) (context : Context)

theorem createTablespace_result? (name : String) (lines : List (List Char)) :
    (createTablespace c name lines).result? =
      c.editAll (edits context lines (.createTablespace name)) := by
  rw [edits, Catalog.editAll_singleton, createTablespace, result?_map]
  exact (Option.map_map (c.put (.tablespace name)) some _).symm

theorem createRole_result? (name : String) (number : Nat) (lines : List (List Char)) :
    (createRole c name number lines).result? =
      c.editAll (edits context lines (.createRole name)) := by
  rw [edits, Catalog.editAll_singleton, createRole, result?_expectEnd]
  exact (ended_map lines (some ((c.roles.get? name).getD { name })) (c.put (.role name))).symm

theorem commentRole_result? (name : String) (text : List Char) (number : Nat)
    (lines : List (List Char)) : (commentRole c name text number lines).result? =
      c.editAll (edits context lines (.commentRole name text)) := by
  rw [edits, Catalog.editAll_singleton, commentRole, Catalog.edit]
  dsimp only [Catalog.content]
  cases c.roles.get? name <;> rfl

theorem createSchema_result? (name : String) (owner : Option String) (number : Nat)
    (lines : List (List Char)) : (createSchema c name owner number lines).result? =
      c.editAll (edits context lines (.createSchema name owner)) := by
  have hbare : ended lines (c.mentionSchema name) =
      c.editAll (createSchemaEdits name lines none) := by
    rw [createSchemaEdits, Catalog.editAll_singleton]
    exact (ended_map lines none (c.put (.part name .owner))).symm
  rw [edits]
  unfold createSchema
  dsimp only
  rw [result?_expectEnd]
  cases owner with
  | none => exact hbare
  | some owner =>
    by_cases howner : owner = ""
    · subst howner
      exact hbare
    · dsimp only
      have hgiven : given (some owner) = some owner := by
        simp [given, Option.filter, howner]
      rw [if_neg howner, hgiven, createSchemaEdits, Catalog.editAll_cons]
      show _ = Catalog.editAll (c.put (.part name .owner) (some owner)) _
      rw [Catalog.editAll_singleton]
      exact (ended_map lines (some ((c.roles.get? owner).getD { name := owner }))
        (Catalog.put _ (.role owner))).symm

theorem createSequence_result? (schema name : String) (lines : List (List Char)) :
    (createSequence c schema name lines).result? =
      c.editAll (edits context lines (.createSequence schema name)) := by
  rw [edits, Catalog.editAll_singleton, createSequence, result?_map]
  exact (Option.map_map (c.put (.part schema (.sequence name))) some _).symm

theorem restartSequence_result? (schema name : String) (value : List Char) (number : Nat)
    (lines : List (List Char)) : (restartSequence c schema name value number lines).result? =
      c.editAll (edits context lines (.restartSequence schema name value)) := by
  rw [edits, Catalog.editAll_singleton, restartSequence, Catalog.edit]
  dsimp only [Catalog.content, SchemaPart.get]
  cases (c.schema schema).sequences.get? name with
  | none => rfl
  | some q =>
    dsimp only [restartSequenceEdit]
    cases integer value with
    | error failure => rfl
    | ok n =>
      dsimp only
      rw [result?_expectEnd]
      exact (ended_map lines (some { q with restartWith := some n })
        (c.put (.part schema (.sequence name)))).symm

theorem createTable_result? (schema name : String) (number : Nat) (lines : List (List Char)) :
    (createTable c schema name number lines).result? =
      c.editAll (edits context lines (.createTable schema name)) := by
  rw [edits, Catalog.editAll_singleton, createTable, result?_map, table_read_number _ number 0]
  exact (Option.map_map (c.put (.relation schema name))
    (fun b : TableBody => ({ table := some b.table } : Relation)) _).symm

/-- What becomes of a table that is there. -/
theorem edit_of_table {schema name : String} {t : Table} (h : c.table? schema name = some t)
    {change : Relation → Option Relation} {g : Table → Option Table}
    (hchange : ∀ r : Relation, r.table = some t →
      change r = (g t).map fun t => { table := some t }) :
    c.edit ⟨.relation schema name, change⟩ = (g t).map (c.insertTable schema name) := by
  have htable : (c.content (.relation schema name)).table = some t := by
    rw [← c.table?_eq_content, h]
  show (change (c.content (.relation schema name))).map _ = _
  rw [hchange _ htable]
  exact Option.map_map _ _ _

theorem edit_onTable {schema name : String} {t : Table} (h : c.table? schema name = some t)
    (change : Table → Option Table) :
    c.edit ⟨.relation schema name, onTable change⟩ =
      (change t).map (c.insertTable schema name) :=
  edit_of_table c h fun r ht => by rw [onTable, ht, Option.bind_some]

theorem edit_onTable_none {schema name : String} (h : c.table? schema name = none)
    (change : Table → Option Table) :
    c.edit ⟨.relation schema name, onTable change⟩ = none := by
  have htable : (c.content (.relation schema name)).table = none := by
    rw [← c.table?_eq_content, h]
  show (onTable change (c.content (.relation schema name))).map _ = _
  unfold onTable
  rw [htable]
  rfl

theorem alterTable_result? (schema name : String) (number : Nat) (lines : List (List Char)) :
    (alterTable c schema name number lines).result? =
      c.editAll (edits context lines (.alterTable schema name)) := by
  rw [edits, Catalog.editAll_singleton, alterTable]
  cases ht : c.table? schema name with
  | none =>
    rw [edit_onTable_none c ht]
    rfl
  | some t =>
    rw [edit_onTable c ht, alterEdit, alter_read_number _ 0 number]
    dsimp only [Reading.result?]
    cases (AlterBody.read _ number t lines).outcome <;> rfl

theorem restartIdentity_result? (schema owner column : String) (value : List Char) (number : Nat)
    (lines : List (List Char)) :
    (restartIdentity c schema owner column value number lines).result? =
      c.editAll (edits context lines (.restartIdentity schema owner column value)) := by
  rw [edits, Catalog.editAll_singleton, restartIdentity]
  cases ht : c.table? schema owner with
  | none =>
    rw [edit_onTable_none c ht]
    rfl
  | some t =>
    rw [edit_onTable c ht, restartEdit]
    dsimp only
    cases (t.column? column).bind (·.identity) with
    | none => rfl
    | some identity =>
      dsimp only
      cases integer value with
      | error failure => rfl
      | ok n =>
        dsimp only
        rw [result?_expectEnd]
        exact (ended_map lines _ _).symm

theorem createIndex_result? (unique : Bool) (indexSchema name schema owner : String)
    (number : Nat) (lines : List (List Char)) :
    (createIndex c unique indexSchema name schema owner number lines).result? =
      c.editAll (edits context lines (.createIndex unique indexSchema name schema owner)) := by
  rw [edits, Catalog.editAll_singleton, createIndex]
  cases ht : c.table? schema owner with
  | none =>
    rw [edit_onTable_none c ht]
    rfl
  | some t =>
    rw [edit_onTable c ht, indexEdit]
    dsimp only
    rw [result?_ofExcept, toOption_map, Option.map_map]
    rfl

theorem commentColumn_result? (schema owner column : String) (text : List Char) (number : Nat)
    (lines : List (List Char)) : (commentColumn c schema owner column text number lines).result? =
      c.editAll (edits context lines (.commentColumn schema owner column text)) := by
  rw [edits, Catalog.editAll_singleton, commentColumn, Catalog.edit, c.table?_eq]
  dsimp only [Catalog.content, SchemaPart.get, columnCommentEdit]
  cases (c.schema schema).tables.get? owner with
  | none => rfl
  | some t =>
    dsimp only
    cases t.column? column <;> rfl

theorem commentTable_result? (schema name : String) (text : List Char)
    (lines : List (List Char)) : (commentTable c schema name text lines).result? =
      c.editAll (edits context lines (.commentTable schema name text)) := by
  rw [edits, Catalog.editAll_singleton, commentTable, Catalog.edit, c.table?_eq]
  dsimp only [Catalog.content, SchemaPart.get, commentEdit]
  cases (c.schema schema).tables.get? name <;> rfl

theorem createDomain_result? (schema name : String) (base : List Char) (number : Nat)
    (lines : List (List Char)) : (createDomain c schema name base number lines).result? =
      c.editAll (edits context lines (.createDomain schema name base)) := by
  rw [edits, Catalog.editAll_singleton, createDomain, Catalog.edit]
  dsimp only [domainEdit]
  cases TypeName.convert (base.filter (· != '"')) with
  | error failure => rfl
  | ok r =>
    dsimp only
    rw [result?_after, result?_expectEnd]
    exact (ended_map lines (some { name, baseType := r.1 })
      (c.put (.part schema (.domain name)))).symm

theorem commentTrigger_result? (schema name : String) (text : List Char) (number : Nat)
    (lines : List (List Char)) : (commentTrigger c schema name text number lines).result? =
      c.editAll (edits context lines (.commentTrigger schema name text)) := by
  rw [edits, Catalog.editAll_singleton, commentTrigger, Catalog.edit]
  dsimp only [Catalog.content, SchemaPart.get]
  cases (c.schema schema).triggers.get? name <;> rfl

/-- One case for each form. -/
theorem perform_result? (s : Statement) (form : Form) :
    (perform c context s form).result? = c.editAll (edits context s.rest form) := by
  cases form with
  | ignored => rfl
  | createTablespace name => exact createTablespace_result? c context name s.rest
  | createRole name => exact createRole_result? c context name s.number s.rest
  | commentRole name text => exact commentRole_result? c context name text s.number s.rest
  | createSchema name owner => exact createSchema_result? c context name owner s.number s.rest
  | createSequence schema name => exact createSequence_result? c context schema name s.rest
  | restartSequence schema name value =>
    exact restartSequence_result? c context schema name value s.number s.rest
  | createTable schema name => exact createTable_result? c context schema name s.number s.rest
  | alterTable schema name => exact alterTable_result? c context schema name s.number s.rest
  | restartIdentity schema owner column value =>
    exact restartIdentity_result? c context schema owner column value s.number s.rest
  | createIndex unique indexSchema name schema owner =>
    exact createIndex_result? c context unique indexSchema name schema owner s.number s.rest
  | commentColumn schema owner column text =>
    exact commentColumn_result? c context schema owner column text s.number s.rest
  | commentTable schema name text => exact commentTable_result? c context schema name text s.rest
  | createDomain schema name base =>
    exact createDomain_result? c context schema name base s.number s.rest
  | setSchema schema => rfl
  | setPath path => rfl
  | createView schema name first => rfl
  | createTrigger schema name first => rfl
  | commentTrigger schema name text =>
    exact commentTrigger_result? c context schema name text s.number s.rest
  | createFunction schema name first => rfl

end

/-- The statements about a table or view, and what each of them does to it. -/
inductive Touches (rest : List (List Char)) (schema name : String) :
    Form → (Relation → Option Relation) → Prop
  | createTable : Touches rest schema name (.createTable schema name) fun _ =>
      (TableBody.read (TableBody.display schema name) 0 { table := { name } } rest).result?.map
        fun b => { table := some b.table }
  | alterTable : Touches rest schema name (.alterTable schema name)
      (onTable (alterEdit ("ALTER TABLE " ++ TableBody.display schema name) rest))
  | restartIdentity (column : String) (value : List Char) :
      Touches rest schema name (.restartIdentity schema name column value)
        (onTable (restartEdit column value rest))
  | createIndex (unique : Bool) (indexSchema index : String) :
      Touches rest schema name (.createIndex unique indexSchema index schema name)
        (onTable (indexEdit unique indexSchema index rest))
  | commentColumn (column : String) (text : List Char) :
      Touches rest schema name (.commentColumn schema name column text)
        (columnCommentEdit column (commentText text rest))
  | commentTable (text : List Char) : Touches rest schema name (.commentTable schema name text)
      (commentEdit (commentText text rest))

/-- A statement is about a table or view, or it does not touch it. -/
theorem touches_or (context : Context) (rest : List (List Char)) (schema name : String)
    (form : Form) :
    (∃ change, Touches rest schema name form change ∧
      edits context rest form = [⟨.relation schema name, change⟩]) ∨
    .relation schema name ∉ (edits context rest form).map Edit.object ∧
      ∀ change, ¬Touches rest schema name form change := by
  have hother {s n : String} {f : Form} {change : Relation → Option Relation}
      (hedits : edits context rest f = [⟨.relation s n, change⟩])
      (htouches : ∀ {change}, Touches rest schema name f change → s = schema ∧ n = name)
      (h : ¬(s = schema ∧ n = name)) :
      .relation schema name ∉ (edits context rest f).map Edit.object ∧
        ∀ change, ¬Touches rest schema name f change := by
    refine ⟨?_, fun change ht => h (htouches ht)⟩
    rw [hedits, List.map_singleton, List.mem_singleton]
    intro hobject
    cases hobject
    exact h ⟨rfl, rfl⟩
  cases form with
  | createTable s n =>
    by_cases h : s = schema ∧ n = name
    · obtain ⟨rfl, rfl⟩ := h
      exact .inl ⟨_, .createTable, rfl⟩
    · exact .inr (hother rfl (fun ht => by cases ht; exact ⟨rfl, rfl⟩) h)
  | alterTable s n =>
    by_cases h : s = schema ∧ n = name
    · obtain ⟨rfl, rfl⟩ := h
      exact .inl ⟨_, .alterTable, rfl⟩
    · exact .inr (hother rfl (fun ht => by cases ht; exact ⟨rfl, rfl⟩) h)
  | restartIdentity s n column value =>
    by_cases h : s = schema ∧ n = name
    · obtain ⟨rfl, rfl⟩ := h
      exact .inl ⟨_, .restartIdentity column value, rfl⟩
    · exact .inr (hother rfl (fun ht => by cases ht; exact ⟨rfl, rfl⟩) h)
  | createIndex unique indexSchema index s n =>
    by_cases h : s = schema ∧ n = name
    · obtain ⟨rfl, rfl⟩ := h
      exact .inl ⟨_, .createIndex unique indexSchema index, rfl⟩
    · exact .inr (hother rfl (fun ht => by cases ht; exact ⟨rfl, rfl⟩) h)
  | commentColumn s n column text =>
    by_cases h : s = schema ∧ n = name
    · obtain ⟨rfl, rfl⟩ := h
      exact .inl ⟨_, .commentColumn column text, rfl⟩
    · exact .inr (hother rfl (fun ht => by cases ht; exact ⟨rfl, rfl⟩) h)
  | commentTable s n text =>
    by_cases h : s = schema ∧ n = name
    · obtain ⟨rfl, rfl⟩ := h
      exact .inl ⟨_, .commentTable text, rfl⟩
    · exact .inr (hother rfl (fun ht => by cases ht; exact ⟨rfl, rfl⟩) h)
  | createSchema s owner =>
    refine .inr ⟨?_, fun change ht => by cases ht⟩
    rw [edits]
    cases given owner <;> simp [createSchemaEdits]
  | _ => exact .inr ⟨by simp [edits], fun change ht => by cases ht⟩

end SchemaTransfer.Load
