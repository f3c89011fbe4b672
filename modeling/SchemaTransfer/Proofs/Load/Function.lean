import SchemaTransfer.Proofs.Load.Columns
import SchemaTransfer.Proofs.Load.Context
import SchemaTransfer.Proofs.Names.Closest

/-!
# Statements that create a function

Such a statement never fails. It gives its schema one entry more, under the key that the search for
a free one ends with, and changes nothing else. The name of a function may well be the key of
another one; the search goes by whatever key is taken.
-/
namespace SchemaTransfer.Load
open Dump Unicode

/-- The text of a body: what stands on the first line between the blanks around it, if there is
anything, and the lines behind it, each in a line of its own. -/
inductive IsBody : List Char → List (List Char) → String → Prop
  | below {first : List Char} (hfirst : allBlank first = true) (rest : List (List Char)) :
      IsBody first rest ("\n".intercalate (rest.map String.ofList))
  | begun {front text back : List Char} (hfront : allBlank front = true)
      (hback : allBlank back = true) (hstarts : startsVisible text = true)
      (hends : endsVisible text = true) (rest : List (List Char)) :
      IsBody (front ++ (text ++ back)) rest
        ("\n".intercalate (String.ofList text :: rest.map String.ofList))

theorem bodyText_eq (first : List Char) (rest : List (List Char)) :
    bodyText first rest = "\n".intercalate
      ((if trim first = [] then rest else trim first :: rest).map String.ofList) := by
  refine String.toList_inj.1 ?_
  simp [bodyText, String.toList_intercalate, Function.comp_def]

/-- There is one such text, and it is the one that is kept. -/
theorem isBody_iff {first : List Char} {rest : List (List Char)} {body : String} :
    IsBody first rest body ↔ body = bodyText first rest := by
  rw [bodyText_eq]
  constructor
  · intro h
    cases h with
    | below hfirst =>
      have hempty : trim first = [] := by
        rw [← List.nil_append first, trim_append_of_allBlank hfirst]
        rfl
      rw [if_pos hempty]
    | @begun front text back hfront hback hstarts hends =>
      have htrim : trim (front ++ (text ++ back)) = text := by
        rw [trim, trimLeft_append hfront, trimLeft_of_startsVisible hstarts,
          trimRight_append hends hback]
      have hne : text ≠ [] := by
        rintro rfl
        cases hstarts
      rw [htrim, if_neg hne, List.map_cons]
  · rintro rfl
    obtain ⟨front, back, hfront, hback, hfirst⟩ := exists_trim_append first
    by_cases hempty : trim first = []
    · rw [if_pos hempty]
      refine .below ?_ rest
      rw [hfirst, hempty, List.nil_append, allBlank, List.all_append, Bool.and_eq_true]
      exact ⟨hfront, hback⟩
    · have hbody := IsBody.begun hfront hback (startsVisible_trim hempty) (endsVisible_trim hempty)
        rest
      rw [← hfirst] at hbody
      rwa [if_neg hempty, List.map_cons]

/-- A statement that creates a function. -/
def CreatesFunction (t : Taken) : Prop :=
  ∃ written name first, Form.ofLine? t.statement.first = some (.createFunction written name first)

/-- What is written for the function that a statement creates. -/
def functionBlock? (context : Context) (t : Taken) : Option Item :=
  match Form.ofLine? t.statement.first with
  | some (.createFunction written name first) =>
    some (.createFunction (placeOf written context) name.name (bodyText first t.statement.rest))
  | _ => none

/-- The statements that create a function, each in its context. -/
def functionStatements (ts : List Taken) : List (Context × Taken) :=
  inContext (fun context t => (functionBlock? context t).map fun _ => (context, t)) ts

theorem createsFunction_iff (context : Context) (t : Taken) :
    CreatesFunction t ↔ (functionBlock? context t).isSome = true := by
  unfold CreatesFunction functionBlock?
  cases Form.ofLine? t.statement.first with
  | none => simp
  | some form => cases form <;> simp

instance (t : Taken) : Decidable (CreatesFunction t) :=
  decidable_of_iff _ (createsFunction_iff {} t).symm

theorem overloadCount_least (routines : Keyed Routine) (name : String) {j : ℕ} (hj : 1 ≤ j)
    (hlt : j < overloadCount routines name) :
    routines.contains (overloadKey name j) = true := by
  unfold overloadCount at hlt
  cases hfind : ((List.range (routines.size + 1)).map (· + 1)).find? fun k =>
      !routines.contains (overloadKey name k) with
  | none =>
    rw [hfind] at hlt
    simp only [Option.getD_none] at hlt
    omega
  | some n =>
    rw [hfind, Option.getD_some] at hlt
    rw [List.find?_map] at hfind
    obtain ⟨k, hk, rfl⟩ := Option.map_eq_some_iff.1 hfind
    obtain ⟨-, -, hleast⟩ := List.find?_range_eq_some.1 hk
    obtain ⟨i, rfl⟩ : ∃ i, j = i + 1 := ⟨j - 1, by omega⟩
    simpa using hleast i (by omega)

/-- The name itself is tried, then the name with the numbers from two on. -/
theorem overloadKey_search (routines : Keyed Routine) (name : String) :
    Names.Search (routines.contains · = true) (name ++ "_") name 2
      (overloadKey name (overloadCount routines name)) := by
  have hfree := overloadCount_free routines name
  rw [← Keyed.contains_iff_mem_keys] at hfree
  have hpos := overloadCount_pos routines name
  have hleast := @overloadCount_least routines name
  generalize overloadCount routines name = count at hfree hpos hleast ⊢
  by_cases hone : count = 1
  · simp only [overloadKey, hone, if_true] at hfree ⊢
    exact .free hfree
  · rw [overloadKey, if_neg hone] at hfree ⊢
    apply Names.Search.of_least
    · simpa [overloadKey] using hleast le_rfl (by omega)
    · omega
    · exact hfree
    · intro j hj hjk
      have htaken := hleast (by omega) hjk
      rwa [overloadKey, if_neg (by omega)] at htaken

/-- The catalog `d` is `c` with one function more, which has got the key. -/
structure GetsFunction (c : Catalog) (context : Context) (schema name body : String)
    (d : Catalog) (key : String) : Prop where
  /-- The search for the key ends. -/
  search : Names.Search ((c.schema schema).routines.contains · = true) (name ++ "_") name 2 key
  fresh : (c.schema schema).routines.get? key = none
  entry : (d.schema schema).routines.get? key = some { name, statement := body, context }
  kept : ∀ k, k ≠ key → (d.schema schema).routines.get? k = (c.schema schema).routines.get? k
  others : ∀ x, x ≠ .part schema .routines → d.content x = c.content x

theorem advance_getsFunction {p q : Catalog × Context} {s : Statement} {written : Option NameToken}
    {name : NameToken} {first : List Char}
    (hform : Form.ofLine? s.first = some (.createFunction written name first))
    (h : advance p s = some q) :
    ∃ key, GetsFunction p.1 p.2 (placeOf written p.2) name.name (bodyText first s.rest) q.1
      key := by
  rw [← schemaOr_eq_placeOf]
  obtain ⟨new, hnew, hcontent⟩ := content_advance hform rfl h
  cases hnew
  obtain ⟨form, hform', -, hedits⟩ := advance_eq_some h
  cases hform.symm.trans hform'
  let routines := (p.1.schema (schemaOr written p.2.schema)).routines
  let f : Routine := { name := name.name, statement := bodyText first s.rest, context := p.2 }
  have hroutines : (q.1.schema (schemaOr written p.2.schema)).routines =
      routines.insert (overloadKey name.name (overloadCount routines name.name)) f := hcontent
  refine ⟨overloadKey name.name (overloadCount routines name.name), ?_⟩
  constructor
  · exact overloadKey_search routines name.name
  · have hfree := overloadCount_free routines name.name
    rw [← Keyed.contains_iff_mem_keys, Bool.not_eq_true] at hfree
    exact (Keyed.get?_eq_none_iff _ _).2 hfree
  · rw [hroutines, Keyed.get?_insert_self]
  · intro k hk
    rw [hroutines, Keyed.get?_insert_of_ne _ _ (Ne.symm hk)]
  · intro x hx
    apply Catalog.content_editAll hedits
    simpa [edits] using hx

theorem take_createFunction (session : Session) {s : Statement} {written : Option NameToken}
    {name : NameToken} {first : List Char}
    (hform : Form.ofLine? s.first = some (.createFunction written name first)) :
    (session.take s).outcome = .ok [] ∧
      ∃ key, GetsFunction session.catalog session.context (placeOf written session.context)
        name.name (bodyText first s.rest) (session.take s).session.catalog key := by
  have houtcome : (session.take s).outcome = .ok [] := by
    unfold Session.take
    rw [hform]
    rfl
  have hadvance := take_advance session s
  rw [houtcome] at hadvance
  exact ⟨houtcome, advance_getsFunction hform hadvance⟩

/-- Statements that create functions can all be loaded. -/
theorem exists_load_of_functions {ts : List Taken} (h : ∀ t ∈ ts, CreatesFunction t)
    (p : Catalog × Context) : ∃ q, load p ts = some q := by
  induction ts generalizing p with
  | nil => exact ⟨p, rfl⟩
  | cons t ts ih =>
    obtain ⟨⟨written, name, first, hform⟩, hts⟩ := List.forall_mem_cons.1 h
    have houtcome := (take_createFunction { catalog := p.1, context := p.2 } hform).1
    have hadvance := take_advance { catalog := p.1, context := p.2 } t.statement
    rw [houtcome] at hadvance
    rw [load_cons, hadvance]
    exact ih hts _

/-- They declare no table. -/
theorem columnNames?_of_functions {ts : List Taken} {q : Catalog × Context}
    (h : ∀ t ∈ ts, CreatesFunction t) (hload : load ({}, {}) ts = some q) (schema name : String) :
    q.1.columnNames? schema name = none := by
  have hnone : ts.reverse.find? (declares schema name) = none := by
    apply List.find?_eq_none.2
    intro t ht
    obtain ⟨written, token, first, hform⟩ := h t (List.mem_reverse.1 ht)
    simp [declares, hform]
  rw [load_columnNames hload, hnone]
  rfl

end SchemaTransfer.Load
