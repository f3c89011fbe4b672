import SchemaTransfer.Proofs.Load.Leftover
import SchemaTransfer.Proofs.Load.WellKept
import SchemaTransfer.Proofs.Load.Edit

/-!
# What a statement that fails leaves behind

A statement is checked line by line while it is carried out, so that one that fails may leave the
object it names half changed, and the object's schema as a new one. Nothing else is changed: no
other object, no comment outside the table that the statement names, and neither the current schema
nor the current path. Constraints, indexes and the comments on roles and columns are put in at the
very end, so these statements leave no trace at all.
-/
namespace SchemaTransfer

/-- The comments in what is held of an object. Those of a table belong to the table. -/
def Object.comments : (x : Object) → x.Content → Option String × Option (Keyed String)
  | .role _, r => (Option.bind r Role.comment, none)
  | .part _ (.relation _), r => (Relation.comment r, Relation.columnComments r)
  | .part _ (.trigger _), t => (Option.bind t Trigger.comment, none)
  | _, _ => (none, none)

/-- The second catalog is the first one but for what it holds of some objects, and for a schema that
may be new. -/
structure Spares (objects : List Object) (schema : Option String) (c d : Catalog) : Prop where
  content : ∀ x ∉ objects, d.content x = c.content x
  comments : ∀ x : Object, x.comments (d.content x) = x.comments (c.content x)
  schemas : ∀ name, d.schemaName? name = c.schemaName? name ∨
    schema = some name ∧ c.schemaName? name = none ∧ d.schemaName? name = some name

namespace Spares

variable {objects : List Object} {schema : Option String} {c d e : Catalog}

theorem of_eq (h : d = c) : Spares objects schema c d :=
  h ▸ ⟨fun _ _ => rfl, fun _ => rfl, fun _ => .inl rfl⟩

theorem trans (h : Spares objects schema c d) (h' : Spares objects schema d e) :
    Spares objects schema c e where
  content x hx := (h'.content x hx).trans (h.content x hx)
  comments x := (h'.comments x).trans (h.comments x)
  schemas name := by
    obtain heq' | ⟨hschema, hnone, hnew⟩ := h'.schemas name
    · rw [heq']
      exact h.schemas name
    · obtain heq | ⟨-, hnone', -⟩ := h.schemas name
      · exact .inr ⟨hschema, heq ▸ hnone, hnew⟩
      · exact .inr ⟨hschema, hnone', hnew⟩

/-- The comments of the object have to stay by themselves; all else is what putting does. -/
theorem put {x : Object} {v : x.Content} (hx : x ∈ objects)
    (hcomments : x.comments (x.update v (c.content x)) = x.comments (c.content x))
    (hschema : ∀ name ∈ x.schemas, schema = some name ∨ c.schemaName? name ≠ none) :
    Spares objects schema c (c.put x v) where
  content y hy := c.content_put_of_ne v fun hxy => hy (hxy ▸ hx)
  comments y := by
    by_cases hxy : x = y
    · subst hxy
      rw [c.content_put_self, hcomments]
    · rw [c.content_put_of_ne v hxy]
  schemas name := by
    rw [c.schemaName?_put]
    split
    · next hname =>
      cases hold : c.schemaName? name with
      | some old => exact .inl rfl
      | none => exact .inr ⟨(hschema name hname).resolve_right (· hold), rfl, rfl⟩
    · exact .inl rfl

/-- What puts in nothing new spares all objects. -/
theorem put_of_update {x : Object} {v : x.Content} (hx : x.update v (c.content x) = c.content x)
    (hschema : ∀ name ∈ x.schemas, schema = some name ∨ c.schemaName? name ≠ none) :
    Spares objects schema c (c.put x v) := by
  have hput : Spares [x] schema c (c.put x v) :=
    put List.mem_cons_self (congrArg x.comments hx) hschema
  refine ⟨fun y _ => ?_, hput.comments, hput.schemas⟩
  by_cases hxy : x = y
  · subst hxy
    rw [c.content_put_self, hx]
  · rw [c.content_put_of_ne v hxy]

theorem mentionSchema (c : Catalog) (name : String) :
    Spares objects (some name) c (c.mentionSchema name) :=
  put_of_update (x := .part name .owner) (v := (none : Option String)) rfl
    fun _ hother => .inl (congrArg some (List.mem_singleton.1 hother).symm)

/-- A part of a schema, which may be new. -/
theorem put_part {name : String} {p : SchemaPart} {v : p.Content} (h : .part name p ∈ objects)
    (hcomments : Object.comments (.part name p) (p.update v (c.content (.part name p))) =
      Object.comments (.part name p) (c.content (.part name p))) :
    Spares objects (some name) c (c.put (.part name p) v) :=
  put h hcomments fun _ hother => .inl (congrArg some (List.mem_singleton.1 hother).symm)

theorem mentionRole (c : Catalog) {name : String} (h : .role name ∈ objects) :
    Spares objects schema c (c.mentionRole name) := by
  have hcomment (r : Option Role) :
      (Option.or (some (r.getD { name })) r).bind Role.comment = r.bind Role.comment := by
    cases r <;> rfl
  exact put (x := .role name) (v := some ((c.roles.get? name).getD { name })) h
    (congrArg (·, none) (hcomment _)) fun _ hname => by cases hname

theorem insertTable (c : Catalog) {name key : String} (t : Table)
    (h : .relation name key ∈ objects)
    (hschema : schema = some name ∨ c.schemaName? name ≠ none) :
    Spares objects schema c (c.insertTable name key t) :=
  put (x := .relation name key) (v := ({ table := some t } : Relation)) h rfl
    fun other hother => by rwa [List.mem_singleton.1 hother]

end Spares

theorem Catalog.schemaName?_of_table {c : Catalog} {schema name : String} {t : Table}
    (h : c.table? schema name = some t) : c.schemaName? schema ≠ none := by
  obtain ⟨s, hs, -⟩ := Option.bind_eq_some_iff.1 h
  rw [schemaName?, hs]
  exact Option.some_ne_none _

namespace Load
open Dump

/-- What a statement of a form may leave half changed when it fails. -/
def footprint : Form → List Object
  | .createTablespace name => [.tablespace name]
  | .createRole name => [.role name]
  | .createSchema name owner => .part name .owner :: (given owner).toList.map .role
  | .createSequence schema name => [.part schema (.sequence name)]
  | .restartSequence schema name _ => [.part schema (.sequence name)]
  | .createTable schema name => [.relation schema name]
  | .restartIdentity schema owner _ _ => [.relation schema owner]
  | .createDomain schema name _ => [.part schema (.domain name)]
  | _ => []

/-- The schema that a statement of a form may leave behind as a new one when it fails. -/
def mentioned? : Form → Option String
  | .createSchema name _ => some name
  | .createSequence schema _ => some schema
  | .restartSequence schema _ _ => some schema
  | .createTable schema _ => some schema
  | .createDomain schema _ _ => some schema
  | .commentTrigger schema _ _ => some schema
  | _ => none

/-- The kinds of the statements that change nothing when they fail. -/
def leavesNoTrace : Kind → Bool
  | .alterTable => true
  | .createIndex => true
  | .commentRole => true
  | .commentColumn => true
  | _ => false

section

variable (c : Catalog)

theorem createSchema_spares (name : String) (owner : Option String) (number : Nat)
    (lines : List (List Char)) :
    Spares (footprint (.createSchema name owner)) (some name) c
      (createSchema c name owner number lines).value := by
  unfold createSchema
  dsimp only
  rw [expectEnd_value]
  cases owner with
  | none => exact .mentionSchema c name
  | some owner =>
    dsimp only
    split
    · exact .mentionSchema c name
    · next howner =>
      have hgiven : given (some owner) = some owner := by simp [given, Option.filter, howner]
      have howned : Spares (footprint (.createSchema name (some owner))) (some name) c
          (c.put (.part name .owner) (some owner)) := .put_part List.mem_cons_self rfl
      refine howned.trans (.mentionRole _ ?_)
      simp [footprint, hgiven]

theorem restartSequence_spares (schema name : String) (value : List Char) (number : Nat)
    (lines : List (List Char)) : Spares [.part schema (.sequence name)] (some schema) c
      (restartSequence c schema name value number lines).value := by
  unfold restartSequence
  split
  · exact .mentionSchema c schema
  · next q _ =>
    split
    · exact .mentionSchema c schema
    · next n _ =>
      rw [expectEnd_value]
      exact .put_part (p := .sequence name) (v := some { q with restartWith := some n })
        List.mem_cons_self rfl

theorem restartIdentity_spares (schema owner column : String) (value : List Char) (number : Nat)
    (lines : List (List Char)) : Spares [.relation schema owner] none c
      (restartIdentity c schema owner column value number lines).value := by
  unfold restartIdentity
  split
  · exact .of_eq rfl
  · next t ht =>
    split
    · exact .of_eq rfl
    · split
      · exact .of_eq rfl
      · dsimp only
        rw [expectEnd_value]
        exact .insertTable c _ List.mem_cons_self (.inr (Catalog.schemaName?_of_table ht))

theorem createDomain_spares (schema name : String) (base : List Char) (number : Nat)
    (lines : List (List Char)) : Spares [.part schema (.domain name)] (some schema) c
      (createDomain c schema name base number lines).value := by
  unfold createDomain
  split
  · exact .mentionSchema c schema
  · next baseType notices _ =>
    rw [Reading.after, expectEnd_value]
    exact .put_part (p := .domain name) (v := some { name, baseType }) List.mem_cons_self rfl

theorem perform_leavesNoTrace (context : Context) (s : Statement) {form : Form}
    (hform : leavesNoTrace form.kind = true) {failure : Failure}
    (h : (perform c context s form).outcome = .error failure) :
    (perform c context s form).value = c := by
  cases form with
  | commentRole name text =>
    simp only [perform, commentRole] at h ⊢
    split
    · rfl
    · next hrole =>
      rw [hrole] at h
      cases h
  | alterTable schema name =>
    simp only [perform, alterTable] at h ⊢
    split
    · rfl
    · next ht =>
      rw [ht] at h
      dsimp only at h ⊢
      rw [h]
  | createIndex unique indexSchema name schema owner =>
    simp only [perform, createIndex] at h ⊢
    split
    · rfl
    · next t ht =>
      rw [ht] at h
      dsimp only at h ⊢
      cases hread : IndexBody.read ("CREATE INDEX " ++ TableBody.display indexSchema name) unique
          indexSchema name s.rest with
      | error failure => rfl
      | ok index =>
        rw [hread] at h
        cases h
  | commentColumn schema owner column text =>
    simp only [perform, commentColumn] at h ⊢
    cases ht : c.table? schema owner with
    | none =>
      rw [ht] at h
      cases h
    | some t =>
      rw [ht] at h
      dsimp only at h ⊢
      split
      · rfl
      · next hcolumn =>
        rw [hcolumn] at h
        cases h
  | _ => cases hform

/-- One case for each form. Forms that never fail have nothing to show. -/
theorem perform_spares (context : Context) (s : Statement) {form : Form} {failure : Failure}
    (h : (perform c context s form).outcome = .error failure) :
    Spares (footprint form) (mentioned? form) c (perform c context s form).value := by
  cases form with
  | createTablespace name =>
    refine .put (x := .tablespace name) (v := some _) List.mem_cons_self rfl fun _ hname => ?_
    cases hname
  | createRole name =>
    rw [perform, createRole, expectEnd_value]
    exact .mentionRole c List.mem_cons_self
  | createSchema name owner => exact createSchema_spares c name owner s.number s.rest
  | createSequence schema name =>
    exact .put_part (p := .sequence name) (v := some _) List.mem_cons_self rfl
  | restartSequence schema name value =>
    exact restartSequence_spares c schema name value s.number s.rest
  | createTable schema name => exact .insertTable c _ List.mem_cons_self (.inl rfl)
  | restartIdentity schema owner column value =>
    exact restartIdentity_spares c schema owner column value s.number s.rest
  | createDomain schema name base => exact createDomain_spares c schema name base s.number s.rest
  | commentTrigger schema name text =>
    simp only [perform, commentTrigger] at h ⊢
    split
    · exact .mentionSchema c schema
    · next ht =>
      rw [ht] at h
      cases h
  | commentTable schema name text =>
    simp only [perform, commentTable] at h
    split at h <;> cases h
  | commentRole name text => exact .of_eq (perform_leavesNoTrace c context s rfl h)
  | alterTable schema name => exact .of_eq (perform_leavesNoTrace c context s rfl h)
  | createIndex unique indexSchema name schema owner =>
    exact .of_eq (perform_leavesNoTrace c context s rfl h)
  | commentColumn schema owner column text =>
    exact .of_eq (perform_leavesNoTrace c context s rfl h)
  | _ => cases h

end

/-- A statement that fails leaves the current schema and path as they are, and of the catalog all
but the object it names. -/
theorem take_failed (session : Session) (s : Statement) {failure : Failure}
    (h : (session.take s).outcome = .error failure) :
    (session.take s).session.context = session.context ∧
      match Form.ofLine? s.first with
      | none => (session.take s).session.catalog = session.catalog
      | some form =>
        (leavesNoTrace form.kind = true →
          (session.take s).session.catalog = session.catalog) ∧
        Spares (footprint form) (mentioned? form) session.catalog
          (session.take s).session.catalog := by
  cases hform : Form.ofLine? s.first with
  | none =>
    unfold Session.take
    rw [hform]
    exact ⟨rfl, rfl⟩
  | some form =>
    have hfails : (perform session.catalog session.context s form).outcome = .error failure := by
      rw [← take_outcome session s hform, h]
    have hsession : (session.take s).session.context = nextContext session.context form ∧
        (session.take s).session.catalog =
          (perform session.catalog session.context s form).value := by
      unfold Session.take
      rw [hform]
      exact ⟨rfl, rfl⟩
    rw [hsession.1, hsession.2]
    refine ⟨?_, fun hkind => perform_leavesNoTrace _ _ s hkind hfails, perform_spares _ _ s hfails⟩
    cases form <;> first | rfl | cases hfails

/-- A declaration that breaks off leaves its first column behind, in a schema that is new. -/
theorem take_failed_createTable :
    let session : Session := { catalog := { roles := .ofList [("R", { name := "R" })] } }
    let s : Statement := ⟨"CREATE TABLE \"S\".\"T\"  (".toList,
      ["\"A\" INTEGER ,".toList, "END".toList], 1⟩
    (session.take s).outcome = .error (.malformed (.tableLine "END".toList "S.T" 1)) ∧
      ((session.take s).session.catalog.table? "S" "T").map (·.columns.length) = some 1 ∧
      Spares [.relation "S" "T"] (some "S") session.catalog (session.take s).session.catalog := by
  intro session s
  have hfails : (session.take s).outcome =
      .error (.malformed (.tableLine "END".toList "S.T" 1)) := by decide +kernel
  have hform : Form.ofLine? s.first = some (.createTable "S" "T") := by decide +kernel
  have hleft := (take_failed session s hfails).2
  rw [hform] at hleft
  exact ⟨hfails, by decide +kernel, hleft.2⟩

end Load

end SchemaTransfer
