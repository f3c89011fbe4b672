import SchemaTransfer.Proofs.Load.Run

/-!
# Schemas of a dump

A schema is there from the first statement on that mentions it. A trigger or a function without a
schema of its own mentions the current one; a view mentions none.
-/
namespace SchemaTransfer.Load
open Dump

/-- The schemas that a statement mentions, given the current schema. -/
def schemasOf (context : Context) : Form → List String
  | .createSchema name _ => [name]
  | .createSequence schema _ => [schema]
  | .restartSequence schema _ _ => [schema]
  | .createTable schema _ => [schema]
  | .alterTable schema _ => [schema]
  | .restartIdentity schema _ _ _ => [schema]
  | .createIndex _ _ _ schema _ => [schema]
  | .commentColumn schema _ _ _ => [schema]
  | .commentTable schema _ _ => [schema]
  | .createDomain schema _ _ => [schema]
  | .createTrigger schema _ _ => [schemaOr schema context.schema]
  | .commentTrigger schema _ _ => [schema]
  | .createFunction schema _ _ => [schemaOr schema context.schema]
  | .ignored => []
  | .createTablespace _ => []
  | .createRole _ => []
  | .commentRole _ _ => []
  | .setSchema _ => []
  | .setPath _ => []
  | .createView _ _ _ => []

/-- Some statement mentions a schema; the statements before it tell the current one. -/
def Mentions (start : Catalog × Context) (ts : List Taken) (schema : String) : Prop :=
  ∃ before t after p form, ts = before ++ t :: after ∧ load start before = some p ∧
    Form.ofLine? t.statement.first = some form ∧ schema ∈ schemasOf p.2 form

theorem edits_schemas (context : Context) (rest : List (List Char)) (form : Form) :
    (edits context rest form).flatMap (·.object.schemas) = schemasOf context form := by
  cases form with
  | createSchema name owner =>
    rw [edits]
    cases given owner <;> rfl
  | _ => rfl

variable {schema : String} {p q : Catalog × Context}

theorem contains_put (c : Catalog) (x : Object) (v : x.Content) (schema : String) :
    (c.put x v).schemas.contains schema = true ↔
      c.schemas.contains schema = true ∨ schema ∈ x.schemas := by
  have hcontains (d : Catalog) : d.schemas.contains schema = (d.schemaName? schema).isSome := by
    rw [Catalog.schemaName?, Option.isSome_map]
    rfl
  rw [hcontains, hcontains, Catalog.schemaName?_put]
  split
  · next h => simp [h]
  · next h => simp [h]

theorem contains_editAll {c d : Catalog} {es : List Edit} (h : c.editAll es = some d) :
    d.schemas.contains schema = true ↔
      c.schemas.contains schema = true ∨ schema ∈ es.flatMap (·.object.schemas) := by
  induction es generalizing c with
  | nil =>
    cases h
    simp
  | cons e es ih =>
    obtain ⟨c', hc', h⟩ := Option.bind_eq_some_iff.1 h
    obtain ⟨v, -, rfl⟩ := Option.map_eq_some_iff.1 hc'
    rw [ih h, contains_put, List.flatMap_cons, List.mem_append, or_assoc]

/-- A schema is there exactly if it was there before or some statement mentions it. -/
theorem load_schemas {ts : List Taken} (h : load p ts = some q) :
    q.1.schemas.contains schema = true ↔
      p.1.schemas.contains schema = true ∨ Mentions p ts schema := by
  induction ts generalizing p with
  | nil =>
    cases h
    constructor
    · exact .inl
    · rintro (hp | ⟨before, t, after, p', form, hts, -⟩)
      · exact hp
      · simp at hts
  | cons x ts ih =>
    obtain ⟨p', hp', h⟩ := Option.bind_eq_some_iff.1 (load_cons p x ts ▸ h)
    obtain ⟨form, hform, -, hedits⟩ := advance_eq_some hp'
    rw [ih h, contains_editAll hedits, edits_schemas, or_assoc]
    apply or_congr_right
    constructor
    · rintro (hhere | ⟨before, t, after, p'', form', rfl, hload, hform', hmem⟩)
      · exact ⟨[], x, ts, p, form, rfl, rfl, hform, hhere⟩
      · refine ⟨x :: before, t, after, p'', form', rfl, ?_, hform', hmem⟩
        rw [load_cons, hp']
        exact hload
    · rintro ⟨before, t, after, p'', form', hts, hload, hform', hmem⟩
      cases before with
      | nil =>
        cases hts
        cases hload
        cases hform.symm.trans hform'
        exact .inl hmem
      | cons y before =>
        cases hts
        rw [load_cons, hp'] at hload
        exact .inr ⟨before, t, after, p'', form', rfl, hload, hform', hmem⟩

end SchemaTransfer.Load
