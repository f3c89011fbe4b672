import SchemaTransfer.Load.Session
import SchemaTransfer.Proofs.Blank
import SchemaTransfer.Proofs.Catalog.WellKept
import SchemaTransfer.Proofs.Except
import SchemaTransfer.Proofs.Load.Body
import SchemaTransfer.Proofs.Load.TableLine

/-!
# Loading keeps the catalog well

Every statement leaves a well-kept catalog well kept, also if it fails halfway. So the catalog is
well kept behind any statements, in any order.
-/
namespace SchemaTransfer.Load
open Unicode Dump

theorem columnList_ne_nil {context : String} {directed : Bool} {lines : List (List Char)}
    {r : List IndexColumn × List (List Char)}
    (h : columnList context directed lines = .ok r) : r.1 ≠ [] := by
  cases lines with
  | nil => cases h
  | cons line rest =>
    rw [columnList.eq_def] at h
    dsimp only at h
    split at h
    · cases h
    · split at h
      · cases h
      · split at h
        · cases h
          exact List.cons_ne_nil _ _
        · split at h
          · cases h
            exact List.cons_ne_nil _ _
          · cases h

theorem nameList_ne_nil {context : String} {lines : List (List Char)}
    {r : List String × List (List Char)} (h : nameList context lines = .ok r) : r.1 ≠ [] := by
  obtain ⟨columns, hcolumns, rfl⟩ := map_eq_ok h
  exact fun hnil => columnList_ne_nil hcolumns (List.map_eq_nil_iff.1 hnil)

theorem key_columns {context : String} {number : Nat} {name : Option String}
    {lines : List (List Char)} {k : Key} (h : AlterBody.key context number name lines = .ok k) :
    k.columns ≠ [] := by
  rw [key_eq] at h
  obtain ⟨r, hr, h⟩ := bind_eq_ok h
  unfold keyFrom at h
  split at h
  · cases h
    exact nameList_ne_nil hr
  · cases h

theorem trailers_columns {context : String} {k k' : ForeignKey} {lines : List (List Char)}
    (h : ForeignKeyBody.trailers context k lines = .ok k') :
    k'.columns = k.columns ∧ k'.refColumns = k.refColumns := by
  induction lines generalizing k with
  | nil =>
    cases h
    exact ⟨rfl, rfl⟩
  | cons line rest ih =>
    rw [ForeignKeyBody.trailers] at h
    split at h
    · next trailer _ =>
      obtain ⟨hcolumns, hrefColumns⟩ := ih h
      rw [hcolumns, hrefColumns]
      cases trailer <;> exact ⟨rfl, rfl⟩
    · cases h

theorem foreignKey_columns {context : String} {name : Option String} {lines : List (List Char)}
    {k : ForeignKey} (h : ForeignKeyBody.read context name lines = .ok k) :
    k.columns ≠ [] ∧ k.refColumns ≠ [] := by
  rw [foreignKey_read_eq] at h
  obtain ⟨columns, hcolumns, h⟩ := bind_eq_ok h
  unfold referencesFrom at h
  split at h
  · cases h
  · obtain ⟨refColumns, hrefColumns, h⟩ := bind_eq_ok h
    obtain ⟨hsame, hrefSame⟩ := trailers_columns h
    rw [hsame, hrefSame]
    exact ⟨nameList_ne_nil hcolumns, nameList_ne_nil hrefColumns⟩

theorem check_condition {context : String} {name : Option String} {lines : List (List Char)}
    {k : Check} (h : CheckBody.read context name lines = .ok k) :
    k.condition ≠ "" ∧ trim k.condition.toList = k.condition.toList := by
  rw [check_read_eq] at h
  unfold checkFrom at h
  split at h
  · cases h
  · split at h
    · cases h
    · next hempty =>
      cases h
      rw [List.isEmpty_iff] at hempty
      refine ⟨fun hnil => hempty ?_, ?_⟩
      · simpa using congrArg String.toList hnil
      · rw [String.toList_ofList, trim_trim]

theorem index_wellKept {context : String} {unique : Bool} {indexSchema name : String}
    {lines : List (List Char)} {i : Index}
    (h : IndexBody.read context unique indexSchema name lines = .ok i) : i.WellKept name := by
  rw [index_read_eq] at h
  obtain ⟨columns, hcolumns, h⟩ := bind_eq_ok h
  obtain ⟨included, -, h⟩ := bind_eq_ok h
  unfold indexFrom at h
  split at h
  · cases h
  · cases h
    exact ⟨rfl, columnList_ne_nil hcolumns⟩

theorem extend_wellKept {context : String} {number : Nat} {t t' : Table} {key : String}
    {addition : Addition} {lines : List (List Char)} (ht : t.WellKept key)
    (h : AlterBody.extend context number t addition lines = .ok t') : t'.WellKept key := by
  cases addition with
  | primaryKey name =>
    obtain ⟨k, hk, rfl⟩ := map_eq_ok h
    refine { ht with primaryKey := fun l hl => ?_ }
    rw [← Option.some.inj hl]
    exact key_columns hk
  | unique name =>
    obtain ⟨k, hk, rfl⟩ := map_eq_ok h
    refine ht.addConstraint ⟨fun l hl => ?_, fun l hl => (by cases hl), fun l hl => (by cases hl)⟩
    rw [← Constraint.unique.inj hl]
    exact key_columns hk
  | foreignKey name =>
    obtain ⟨k, hk, rfl⟩ := map_eq_ok h
    refine ht.addConstraint ⟨fun l hl => (by cases hl), fun l hl => ?_, fun l hl => (by cases hl)⟩
    rw [← Constraint.foreign.inj hl]
    exact foreignKey_columns hk
  | check name =>
    obtain ⟨k, hk, rfl⟩ := map_eq_ok h
    refine ht.addConstraint ⟨fun l hl => (by cases hl), fun l hl => (by cases hl), fun l hl => ?_⟩
    rw [← Constraint.check.inj hl]
    exact check_condition hk

theorem alter_wellKept {context : String} {number : Nat} {t : Table} {key : String}
    (ht : t.WellKept key) (lines : List (List Char)) :
    (AlterBody.read context number t lines).value.WellKept key := by
  unfold AlterBody.read
  split
  · exact ht
  · next line rest =>
    split
    · exact ht
    · next addition _ =>
      cases h : AlterBody.extend context number t addition rest with
      | error failure => exact ht
      | ok t' => exact extend_wellKept ht h

/-- The table is well kept, and the column whose identity is being read has no default value. -/
structure TableBody.WellKept (key : String) (b : TableBody) : Prop where
  table : b.table.WellKept key
  pending : ∀ identity, b.part = .identity identity →
    ∃ c, b.table.columns.getLast? = some c ∧ c.default = none

namespace TableBody

theorem declared_wellKept {c : ColumnLine} {type : String} {notices : List Notice}
    (h : TypeName.convert c.type = .ok (type, notices)) : (declared c type).WellKept where
  converted := ⟨notices, by rw [declared, String.toList_ofList, h]⟩
  exclusive := .inr rfl

theorem default_of_identity {c : ColumnLine} {identity : Identity}
    (h : (clauseEffect c).2 = .identity identity) : (clauseEffect c).1 = none := by
  unfold clauseEffect at h ⊢
  cases hclause : c.clause with
  | identity always => rfl
  | nothing => rfl
  | implicitDefault => rw [hclause] at h; dsimp only at h; split at h <;> cases h
  | default text => rw [hclause] at h; dsimp only at h; split at h <;> cases h
  | generated always expression => rw [hclause] at h; dsimp only at h; split at h <;> cases h

theorem closeIdentity_wellKept {t : Table} {key : String} (ht : t.WellKept key)
    (hlast : ∃ c, t.columns.getLast? = some c ∧ c.default = none) (identity : Identity) :
    (closeIdentity t identity).WellKept key := by
  obtain ⟨c, hc, hdefault⟩ := hlast
  have hcolumns : t.columns.dropLast ++ [c] = t.columns :=
    List.dropLast_append_getLast? c (Option.mem_def.2 hc)
  unfold closeIdentity
  rw [hc]
  refine ⟨ht.name, ht.positions.congr ?_, fun d hd => ?_, ht.primaryKey, ht.constraints,
    ht.indexes⟩
  · rw [← hcolumns]
    simp
  · rcases List.mem_append.1 hd with hd | hd
    · exact ht.columns d ((List.dropLast_sublist _).mem hd)
    · rw [List.mem_singleton.1 hd]
      exact ⟨(ht.columns c (List.mem_of_getLast? hc)).converted, .inl hdefault⟩

theorem Effect.wellKept {b b' : TableBody} {line : List Char} {key : String}
    (h : Effect b line b') (hb : b.WellKept key) : b'.WellKept key := by
  cases h with
  | column c type notices part shape sound converted =>
    refine ⟨hb.table.addColumn (declared_wellKept converted), fun identity hidentity => ?_⟩
    exact ⟨_, List.getLast?_concat, default_of_identity hidentity⟩
  | closes part shape closing => exact ⟨hb.table, fun identity h => by cases h⟩
  | storage s shape part => exact ⟨{ hb.table with }, hb.pending⟩
  | option identity identity' clause part shape value =>
    exact ⟨hb.table, fun _ _ => hb.pending identity part⟩
  | order identity identity' clause closes part shape value =>
    refine ⟨closeIdentity_wellKept hb.table (hb.pending identity part) identity', ?_⟩
    intro other hother
    cases closes <;> cases hother

theorem read_wellKept {shown : String} {number : Nat} {b : TableBody} {key : String}
    (hb : b.WellKept key) (lines : List (List Char)) :
    (read shown number b lines).value.WellKept key := by
  induction lines generalizing b with
  | nil =>
    rw [read]
    split
    · exact hb
    · exact hb
  | cons line rest ih =>
    rw [read]
    cases hstep : step shown number b line with
    | mk b' result =>
      obtain ⟨events, failure⟩ := result
      rcases step_cases hstep with ⟨heffect, rfl⟩ | ⟨rfl, f, rfl⟩
      · exact ih (heffect.wellKept hb)
      · exact hb

end TableBody

theorem sequence_setTwo_name (s : Sequence) (first second : List Char)
    {setFirst setSecond : Sequence → Int → Sequence} (hfirst : ∀ s n, (setFirst s n).name = s.name)
    (hsecond : ∀ s n, (setSecond s n).name = s.name) :
    (SequenceBody.setTwo s first second setFirst setSecond).1.name = s.name := by
  unfold SequenceBody.setTwo
  split
  · rfl
  · split
    · exact hfirst s _
    · exact (hsecond _ _).trans (hfirst s _)

theorem sequence_set_name (s : Sequence) (clause : SequenceLine) :
    (SequenceBody.set s clause).1.name = s.name := by
  cases clause with
  | range least greatest =>
    exact sequence_setTwo_name s least greatest (fun _ _ => rfl) fun _ _ => rfl
  | start value increment =>
    exact sequence_setTwo_name s value increment (fun _ _ => rfl) fun _ _ => rfl
  | cache digits cycle =>
    cases digits with
    | none => rfl
    | some digits =>
      unfold SequenceBody.set
      dsimp only
      split <;> rfl

theorem sequence_name (s : Sequence) (lines : List (List Char)) :
    (SequenceBody.read s lines).value.name = s.name := by
  induction lines generalizing s with
  | nil => rfl
  | cons line rest ih =>
    rw [SequenceBody.read]
    split
    · rfl
    · next clause _ =>
      have hname := sequence_set_name s clause
      split
      · next s' hset =>
        rw [hset] at hname
        exact (ih s').trans hname
      · next s' failure hset =>
        rw [hset] at hname
        exact hname

theorem tablespace_name (t : Tablespace) (inList : Bool) (lines : List (List Char)) :
    (TablespaceBody.read t inList lines).value.name = t.name := by
  induction lines generalizing t inList with
  | nil => cases inList <;> rfl
  | cons line rest ih =>
    rw [tablespace_read_cons]
    split
    · split
      · rfl
      · exact ih _ _
    · split
      · exact ih _ _
      · rfl

theorem overloadCount_pos (routines : Keyed Routine) (name : String) :
    1 ≤ overloadCount routines name := by
  unfold overloadCount
  cases hfind : ((List.range (routines.size + 1)).map (· + 1)).find? fun k =>
      !routines.contains (overloadKey name k) with
  | none => exact Nat.le_refl 1
  | some k =>
    obtain ⟨n, -, rfl⟩ := List.mem_map.1 (List.mem_of_find?_eq_some hfind)
    exact Nat.le_add_left 1 n

theorem routine_wellKept (routines : Keyed Routine) (f : Routine) :
    f.WellKept (overloadKey f.name (overloadCount routines f.name)) := by
  unfold overloadKey
  split
  · exact .inl rfl
  · next h =>
    have := overloadCount_pos routines f.name
    exact .inr ⟨_, by omega, rfl⟩

section

variable {c : Catalog}

theorem expectEnd_value {α : Type} (value : α) (statement : String) (number : Nat)
    (lines : List (List Char)) :
    (Reading.expectEnd value statement number lines).value = value := by
  unfold Reading.expectEnd
  split <;> rfl

theorem createTablespace_wellKept (h : c.WellKept) (name : String) (lines : List (List Char)) :
    (createTablespace c name lines).value.WellKept := by
  refine ⟨h.schemas, h.roles, h.tablespaces.insert ?_⟩
  exact (tablespace_name _ _ _).trans (h.tablespaces.getD rfl)

theorem createRole_wellKept (h : c.WellKept) (name : String) (number : Nat)
    (lines : List (List Char)) : (createRole c name number lines).value.WellKept := by
  rw [createRole, expectEnd_value]
  exact h.mentionRole name

theorem commentRole_wellKept (h : c.WellKept) (name : String) (text : List Char) (number : Nat)
    (lines : List (List Char)) : (commentRole c name text number lines).value.WellKept := by
  unfold commentRole
  split
  · exact h
  · next role hrole =>
    have hname : role.name = name := h.roles.of_get? hrole
    exact h.insertRole hname

theorem createSchema_wellKept (h : c.WellKept) (name : String) (owner : Option String)
    (number : Nat) (lines : List (List Char)) :
    (createSchema c name owner number lines).value.WellKept := by
  unfold createSchema
  dsimp only
  rw [expectEnd_value]
  split
  · exact h.mentionSchema name
  · next owner =>
    split
    · exact h.mentionSchema name
    · have hrole := h.mentionRole owner
      rw [c.modifySchema_mentionRole]
      refine hrole.modifySchema ?_
      refine { hrole.schema name with authorization := fun other hother => ?_ }
      rw [← Option.some.inj hother]
      exact c.contains_mentionRole owner

theorem createSequence_wellKept (h : c.WellKept) (schema name : String)
    (lines : List (List Char)) : (createSequence c schema name lines).value.WellKept := by
  have hs := h.schema schema
  unfold createSequence Reading.map
  dsimp only
  refine h.modifySchema ?_
  refine { hs with sequences := hs.sequences.insert ?_ }
  exact (sequence_name _ _).trans (hs.sequences.getD rfl)

theorem restartSequence_wellKept (h : c.WellKept) (schema name : String) (value : List Char)
    (number : Nat) (lines : List (List Char)) :
    (restartSequence c schema name value number lines).value.WellKept := by
  have hs := h.schema schema
  unfold restartSequence
  split
  · exact h.mentionSchema schema
  · next q hq =>
    have hname : q.name = name := hs.sequences.of_get? hq
    split
    · exact h.mentionSchema schema
    · rw [expectEnd_value]
      refine h.modifySchema ?_
      exact { hs with sequences := hs.sequences.insert hname }

theorem createTable_wellKept (h : c.WellKept) (schema name : String) (number : Nat)
    (lines : List (List Char)) : (createTable c schema name number lines).value.WellKept := by
  have hstart : TableBody.WellKept name { table := { name } } :=
    ⟨Table.wellKept_empty name, fun identity h => by cases h⟩
  exact h.insertTable (TableBody.read_wellKept hstart lines).table

theorem alterTable_wellKept (h : c.WellKept) (schema name : String) (number : Nat)
    (lines : List (List Char)) : (alterTable c schema name number lines).value.WellKept := by
  unfold alterTable
  split
  · exact h
  · next t ht =>
    dsimp only
    split
    · exact h.insertTable (alter_wellKept (h.table ht) lines)
    · exact h

theorem restartIdentity_wellKept (h : c.WellKept) (schema owner column : String)
    (value : List Char) (number : Nat) (lines : List (List Char)) :
    (restartIdentity c schema owner column value number lines).value.WellKept := by
  unfold restartIdentity
  split
  · exact h
  · next t ht =>
    split
    · exact h
    · next identity hidentity =>
      split
      · exact h
      · dsimp only
        rw [expectEnd_value]
        refine h.insertTable ((h.table ht).modifyColumn (fun _ => rfl) fun k hk hkept => ?_)
        -- The column has an identity already, so it has no default value.
        rw [hk, Option.bind_some] at hidentity
        refine ⟨hkept.converted, .inl (hkept.exclusive.resolve_right fun hnone => ?_)⟩
        rw [hnone] at hidentity
        cases hidentity

theorem createIndex_wellKept (h : c.WellKept) (unique : Bool)
    (indexSchema name schema owner : String) (number : Nat) (lines : List (List Char)) :
    (createIndex c unique indexSchema name schema owner number lines).value.WellKept := by
  unfold createIndex
  split
  · exact h
  · next t ht =>
    dsimp only
    cases hindex : IndexBody.read ("CREATE INDEX " ++ TableBody.display indexSchema name) unique
        indexSchema name lines with
    | error failure => exact h
    | ok index =>
      have hkept := h.table ht
      exact h.insertTable { hkept with indexes := hkept.indexes.insert (index_wellKept hindex) }

theorem commentColumn_wellKept (h : c.WellKept) (schema owner column : String)
    (text : List Char) (number : Nat) (lines : List (List Char)) :
    (commentColumn c schema owner column text number lines).value.WellKept := by
  unfold commentColumn Reading.done
  dsimp only
  split
  · dsimp only
    refine h.modifySchema ?_
    exact { h.schema schema with }
  · next t ht =>
    split
    · exact h
    · refine h.insertTable ((h.table ht).modifyColumn (fun _ => rfl) fun k _ hkept => ?_)
      exact ⟨hkept.converted, hkept.exclusive⟩

theorem commentTable_wellKept (h : c.WellKept) (schema name : String) (text : List Char)
    (lines : List (List Char)) : (commentTable c schema name text lines).value.WellKept := by
  unfold commentTable Reading.done
  dsimp only
  split
  · dsimp only
    refine h.modifySchema ?_
    exact { h.schema schema with }
  · next t ht => exact h.insertTable { h.table ht with }

theorem createDomain_wellKept (h : c.WellKept) (schema name : String) (base : List Char)
    (number : Nat) (lines : List (List Char)) :
    (createDomain c schema name base number lines).value.WellKept := by
  have hs := h.schema schema
  unfold createDomain
  split
  · exact h.mentionSchema schema
  · rw [Reading.after, expectEnd_value]
    refine h.modifySchema ?_
    exact { hs with domains := hs.domains.insert rfl }

theorem createTrigger_wellKept (h : c.WellKept) (context : Context) (schema : Option NameToken)
    (name : NameToken) (first : List Char) (lines : List (List Char)) :
    (createTrigger c context schema name first lines).value.WellKept := by
  have hs := h.schema (schemaOr schema context.schema)
  unfold createTrigger Reading.done
  dsimp only
  refine h.modifySchema ?_
  exact { hs with triggers := hs.triggers.insert rfl }

theorem commentTrigger_wellKept (h : c.WellKept) (schema name : String) (text : List Char)
    (number : Nat) (lines : List (List Char)) :
    (commentTrigger c schema name text number lines).value.WellKept := by
  have hs := h.schema schema
  unfold commentTrigger Reading.done
  split
  · exact h.mentionSchema schema
  · next t ht =>
    dsimp only
    have hname : t.name = name := hs.triggers.of_get? ht
    refine h.modifySchema ?_
    exact { hs with triggers := hs.triggers.insert hname }

theorem createFunction_wellKept (h : c.WellKept) (context : Context) (schema : Option NameToken)
    (name : NameToken) (first : List Char) (lines : List (List Char)) :
    (createFunction c context schema name first lines).value.WellKept := by
  have hs := h.schema (schemaOr schema context.schema)
  unfold createFunction Reading.after Reading.done
  dsimp only
  refine h.modifySchema ?_
  have hroutine := routine_wellKept (c.schema (schemaOr schema context.schema)).routines
    { name := name.name, statement := bodyText first lines, context }
  exact { hs with routines := hs.routines.insert hroutine }

/-- One case for each form; the forms that do not appear change nothing but views. -/
theorem perform_wellKept (h : c.WellKept) (context : Context) (s : Statement) (form : Form) :
    (perform c context s form).value.WellKept := by
  cases form with
  | ignored => exact h
  | createTablespace name => exact createTablespace_wellKept h name s.rest
  | createRole name => exact createRole_wellKept h name s.number s.rest
  | commentRole name text => exact commentRole_wellKept h name text s.number s.rest
  | createSchema name owner => exact createSchema_wellKept h name owner s.number s.rest
  | createSequence schema name => exact createSequence_wellKept h schema name s.rest
  | restartSequence schema name value =>
    exact restartSequence_wellKept h schema name value s.number s.rest
  | createTable schema name => exact createTable_wellKept h schema name s.number s.rest
  | alterTable schema name => exact alterTable_wellKept h schema name s.number s.rest
  | restartIdentity schema owner column value =>
    exact restartIdentity_wellKept h schema owner column value s.number s.rest
  | createIndex unique indexSchema name schema owner =>
    exact createIndex_wellKept h unique indexSchema name schema owner s.number s.rest
  | commentColumn schema owner column text =>
    exact commentColumn_wellKept h schema owner column text s.number s.rest
  | commentTable schema name text => exact commentTable_wellKept h schema name text s.rest
  | createDomain schema name base => exact createDomain_wellKept h schema name base s.number s.rest
  | setSchema schema => exact h
  | setPath path => exact h
  | createView schema name first => exact ⟨h.schemas, h.roles, h.tablespaces⟩
  | createTrigger schema name first =>
    exact createTrigger_wellKept h context schema name first s.rest
  | commentTrigger schema name text =>
    exact commentTrigger_wellKept h schema name text s.number s.rest
  | createFunction schema name first =>
    exact createFunction_wellKept h context schema name first s.rest

end

theorem take_wellKept {session : Session} (h : session.catalog.WellKept) (s : Statement) :
    (session.take s).session.catalog.WellKept := by
  unfold Session.take
  split
  · exact h
  · exact perform_wellKept h _ s _

/-- Takes all statements, also behind one that failed. -/
def Session.goOn (session : Session) (statements : List Statement) : Session :=
  statements.foldl (fun session s => (session.take s).session) session

theorem goOn_wellKept {session : Session} (h : session.catalog.WellKept)
    (statements : List Statement) : (session.goOn statements).catalog.WellKept := by
  induction statements generalizing session with
  | nil => exact h
  | cons s statements ih => exact ih (take_wellKept h s)

/-- Whatever statements a catalog was loaded from, failing ones included, it is well kept. -/
theorem loaded_wellKept (statements : List Statement) :
    (({} : Session).goOn statements).catalog.WellKept :=
  goOn_wellKept Catalog.wellKept_empty statements

end SchemaTransfer.Load
