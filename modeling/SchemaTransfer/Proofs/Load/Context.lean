import Mathlib.Data.List.Induction
import SchemaTransfer.Proofs.Load.Run
import SchemaTransfer.Proofs.Names.Fresh

/-!
# The context of what users typed

A view, a trigger or a function is kept with the schema and the path that the last statements
before it set. Views stay in the order of the dump. Of several triggers of one name in a schema the
last one is kept, of several functions all of them.
-/
namespace SchemaTransfer.Load
open Dump

def schemaSet? (t : Taken) : Option String :=
  match Form.ofLine? t.statement.first with
  | some (.setSchema schema) => some schema
  | _ => none

def pathSet? (t : Taken) : Option String :=
  match Form.ofLine? t.statement.first with
  | some (.setPath path) => some path
  | _ => none

/-- The schema and the path that were set last, each of them empty if it never was. -/
def contextAfter (ts : List Taken) : Context :=
  { schema := (ts.reverse.findSome? schemaSet?).getD ""
    path := (ts.reverse.findSome? pathSet?).getD "" }

/-- What the statements give rise to, each in the context that the ones before it have set. -/
def inContext {α : Type} (f : Context → Taken → Option α) (ts : List Taken) : List α :=
  ts.zipIdx.filterMap fun (t, i) => f (contextAfter (ts.take i)) t

/-- The schema that is written ahead of a name, unless it is blank, or else the current one. -/
def placeOf (written : Option NameToken) (context : Context) : String :=
  (given (written.map NameToken.name)).getD context.schema

def viewOf? (context : Context) (t : Taken) : Option View :=
  match Form.ofLine? t.statement.first with
  | some (.createView written name first) =>
    some { schema := placeOf written context, name := name.name,
           statement := bodyText first t.statement.rest, context }
  | _ => none

/-- The trigger of a schema and a name that a statement creates. -/
def triggerOf? (schema name : String) (context : Context) (t : Taken) : Option Trigger :=
  match Form.ofLine? t.statement.first with
  | some (.createTrigger written token first) =>
    if placeOf written context = schema ∧ token.name = name then
      some { name, statement := bodyText first t.statement.rest, context }
    else none
  | _ => none

/-- The function of a schema that a statement creates. -/
def routineOf? (schema : String) (context : Context) (t : Taken) : Option Routine :=
  match Form.ofLine? t.statement.first with
  | some (.createFunction written name first) =>
    if placeOf written context = schema then
      some { name := name.name, statement := bodyText first t.statement.rest, context }
    else none
  | _ => none

theorem schemaOr_eq_placeOf (written : Option NameToken) (context : Context) :
    schemaOr written context.schema = placeOf written context := by
  unfold schemaOr placeOf given
  cases written with
  | none => rfl
  | some token =>
    rw [Option.map_some, Option.filter_some]
    by_cases h : token.name = ""
    · simp [h]
    · simp [h]

theorem contextAfter_concat {ts : List Taken} {t : Taken} {form : Form}
    (h : Form.ofLine? t.statement.first = some form) :
    contextAfter (ts ++ [t]) = nextContext (contextAfter ts) form := by
  unfold contextAfter
  rw [List.reverse_append, List.reverse_singleton, List.singleton_append, List.findSome?_cons,
    List.findSome?_cons, schemaSet?, pathSet?, h]
  cases form <;> rfl

theorem inContext_concat {α : Type} (f : Context → Taken → Option α) (ts : List Taken)
    (t : Taken) : inContext f (ts ++ [t]) = inContext f ts ++ (f (contextAfter ts) t).toList := by
  unfold inContext
  have hbefore : ts.zipIdx.filterMap (fun (u, i) => f (contextAfter ((ts ++ [t]).take i)) u) =
      ts.zipIdx.filterMap fun (u, i) => f (contextAfter (ts.take i)) u := by
    refine List.filterMap_congr fun (u, i) hmem => ?_
    obtain ⟨-, hi, -⟩ := List.mem_zipIdx hmem
    dsimp only
    rw [List.take_append_of_le_length (by omega)]
  have hlast : [(t, ts.length)].filterMap (fun (u, i) => f (contextAfter ((ts ++ [t]).take i)) u) =
      (f (contextAfter ts) t).toList := by
    simp only [List.filterMap_cons, List.filterMap_nil, List.take_left]
    cases f (contextAfter ts) t <;> rfl
  rw [List.zipIdx_append, List.filterMap_append, hbefore, Nat.zero_add, List.zipIdx_singleton,
    hlast]

theorem load_concat (p : Catalog × Context) (ts : List Taken) (t : Taken) :
    load p (ts ++ [t]) = (load p ts).bind fun q => advance q t.statement := by
  rw [load_append]
  exact Option.bind_congr fun q _ => Option.bind_fun_some _

/-- What holds of an empty catalog, and behind each statement of what was loaded before it. -/
theorem load_induction {motive : List Taken → Catalog × Context → Prop}
    (hnil : motive [] ({}, {}))
    (hconcat : ∀ ts t p q, load ({}, {}) ts = some p → motive ts p →
      advance p t.statement = some q → motive (ts ++ [t]) q)
    {ts : List Taken} {q : Catalog × Context} (h : load ({}, {}) ts = some q) : motive ts q := by
  induction ts using List.reverseRecOn generalizing q with
  | nil =>
    cases h
    exact hnil
  | append_singleton ts t ih =>
    obtain ⟨p, hp, hq⟩ := Option.bind_eq_some_iff.1 (load_concat _ ts t ▸ h)
    exact hconcat ts t p q hp (ih hp) hq

variable {ts : List Taken} {q : Catalog × Context}

theorem load_context (h : load ({}, {}) ts = some q) : q.2 = contextAfter ts := by
  refine load_induction (motive := fun ts q => q.2 = contextAfter ts) rfl ?_ h
  intro ts t p q _ hp hq
  obtain ⟨form, hform, hcontext, -⟩ := advance_eq_some hq
  rw [hcontext, hp, contextAfter_concat hform]

theorem views_mem_edits {context : Context} {rest : List (List Char)} {form : Form}
    (h : .views ∈ (edits context rest form).map Edit.object) :
    ∃ written name first, form = .createView written name first := by
  cases form with
  | createView written name first => exact ⟨written, name, first, rfl⟩
  | createSchema schema owner =>
    rw [edits] at h
    cases hgiven : given owner <;> simp [hgiven, createSchemaEdits] at h
  | _ => simp [edits] at h

theorem advance_views {p q : Catalog × Context} {t : Taken} (h : advance p t.statement = some q) :
    q.1.views = p.1.views ++ (viewOf? p.2 t).toList := by
  obtain ⟨form, hform, -, hedits⟩ := advance_eq_some h
  by_cases hview : ∃ written name first, form = .createView written name first
  · obtain ⟨written, name, first, rfl⟩ := hview
    have hview : viewOf? p.2 t =
        some { schema := schemaOr written p.2.schema, name := name.name,
               statement := bodyText first t.statement.rest, context := p.2 } := by
      rw [schemaOr_eq_placeOf, viewOf?, hform]
    obtain ⟨new, hnew, hcontent⟩ := content_advance hform rfl h
    cases hnew
    rw [hview]
    exact hcontent
  · have hviews : q.1.views = p.1.views :=
      Catalog.content_editAll hedits (x := .views) fun hmem => hview (views_mem_edits hmem)
    have hnone : viewOf? p.2 t = none := by
      rw [viewOf?, hform]
      cases form with
      | createView written name first => exact absurd ⟨_, _, _, rfl⟩ hview
      | _ => rfl
    rw [hviews, hnone]
    exact (List.append_nil _).symm

theorem load_views (h : load ({}, {}) ts = some q) : q.1.views = inContext viewOf? ts := by
  refine load_induction (motive := fun ts q => q.1.views = inContext viewOf? ts) rfl ?_ h
  intro ts t p q hload hp hq
  rw [advance_views hq, hp, load_context hload, inContext_concat]

/-- A trigger without its comment, which a statement of its own adds. -/
def uncommented (t : Trigger) : Trigger := { t with comment := none }

section

variable {schema name : String}

theorem trigger_mem_edits {context : Context} {rest : List (List Char)} {form : Form}
    (h : .part schema (.trigger name) ∈ (edits context rest form).map Edit.object) :
    (∃ written token first, form = .createTrigger written token first ∧
      schemaOr written context.schema = schema ∧ token.name = name) ∨
    ∃ text, form = .commentTrigger schema name text := by
  cases form with
  | createTrigger written token first =>
    obtain ⟨hschema, hname⟩ : schema = schemaOr written context.schema ∧ name = token.name := by
      simpa [edits] using h
    exact .inl ⟨written, token, first, rfl, hschema.symm, hname.symm⟩
  | commentTrigger other token text =>
    obtain ⟨rfl, rfl⟩ : schema = other ∧ name = token := by simpa [edits] using h
    exact .inr ⟨text, rfl⟩
  | createSchema other owner =>
    rw [edits] at h
    cases hgiven : given owner <;> simp [hgiven, createSchemaEdits] at h
  | _ => simp [edits] at h

theorem advance_createTrigger {p q : Catalog × Context} {t : Taken}
    {written : Option NameToken} {token : NameToken} {first : List Char}
    (hform : Form.ofLine? t.statement.first = some (.createTrigger written token first))
    (h : advance p t.statement = some q) :
    ∃ trigger, uncommented trigger = trigger ∧
      triggerOf? (schemaOr written p.2.schema) token.name p.2 t = some trigger ∧
      (q.1.schema (schemaOr written p.2.schema)).triggers.get? token.name = some trigger := by
  obtain ⟨new, hnew, hcontent⟩ := content_advance hform rfl h
  cases hnew
  refine ⟨_, rfl, ?_, hcontent⟩
  rw [triggerOf?, hform]
  exact if_pos ⟨(schemaOr_eq_placeOf written p.2).symm, rfl⟩

theorem advance_commentTrigger {p q : Catalog × Context} {t : Taken} {text : List Char}
    (hform : Form.ofLine? t.statement.first = some (.commentTrigger schema name text))
    (h : advance p t.statement = some q) :
    ((q.1.schema schema).triggers.get? name).map uncommented =
      ((p.1.schema schema).triggers.get? name).map uncommented := by
  obtain ⟨new, hnew, hcontent⟩ := content_advance hform rfl h
  obtain ⟨old, hold, rfl⟩ := Option.map_eq_some_iff.1 hnew
  have hget : (q.1.schema schema).triggers.get? name =
      some { old with comment := some (commentText text t.statement.rest) } := hcontent
  have hold : (p.1.schema schema).triggers.get? name = some old := hold
  rw [hget, hold]
  rfl

theorem advance_trigger {p q : Catalog × Context} {t : Taken}
    (h : advance p t.statement = some q) :
    ((q.1.schema schema).triggers.get? name).map uncommented =
      (triggerOf? schema name p.2 t).or
        (((p.1.schema schema).triggers.get? name).map uncommented) := by
  obtain ⟨form, hform, -, hedits⟩ := advance_eq_some h
  by_cases hmem : .part schema (.trigger name) ∈ (edits p.2 t.statement.rest form).map Edit.object
  · obtain ⟨written, token, first, rfl, rfl, rfl⟩ | ⟨text, rfl⟩ := trigger_mem_edits hmem
    · obtain ⟨trigger, hplain, hof, hget⟩ := advance_createTrigger hform h
      rw [hget, hof, Option.map_some, hplain, Option.some_or]
    · have hnone : triggerOf? schema name p.2 t = none := by rw [triggerOf?, hform]
      rw [advance_commentTrigger hform h, hnone, Option.none_or]
  · have hsame : (q.1.schema schema).triggers.get? name = (p.1.schema schema).triggers.get? name :=
      Catalog.content_editAll hedits (x := .part schema (.trigger name)) hmem
    have hnone : triggerOf? schema name p.2 t = none := by
      rw [triggerOf?, hform]
      cases form with
      | createTrigger written token first =>
        refine if_neg fun ⟨hschema, hname⟩ => hmem ?_
        rw [← schemaOr_eq_placeOf] at hschema
        simp [edits, hschema, hname]
      | _ => rfl
    rw [hsame, hnone, Option.none_or]

theorem load_trigger (h : load ({}, {}) ts = some q) :
    ((q.1.schema schema).triggers.get? name).map uncommented =
      (inContext (triggerOf? schema name) ts).getLast? := by
  refine load_induction (motive := fun ts q =>
    ((q.1.schema schema).triggers.get? name).map uncommented =
      (inContext (triggerOf? schema name) ts).getLast?) rfl ?_ h
  intro ts t p q hload hp hq
  rw [advance_trigger hq, hp, load_context hload, inContext_concat, List.getLast?_append]
  cases triggerOf? schema name (contextAfter ts) t <;> rfl

end

theorem overloadKey_injective (name : String) :
    Function.Injective fun k : ℕ => overloadKey name (k + 1) := by
  have hlonger (k : ℕ) : name ≠ name ++ "_" ++ k.repr := by
    intro h
    have hlength := congrArg String.length h
    have hdash : "_".length = 1 := rfl
    rw [String.length_append, String.length_append] at hlength
    omega
  intro j k h
  dsimp only [overloadKey] at h
  split at h <;> split at h
  · omega
  · exact absurd h (hlonger _)
  · exact absurd h.symm (hlonger _)
  · have hrepr : (j + 1).repr = (k + 1).repr := (String.append_right_inj _).1 h
    have := Nat.repr_injective hrepr
    omega

/-- A function never takes the key of another one. -/
theorem overloadCount_free (routines : Keyed Routine) (name : String) :
    overloadKey name (overloadCount routines name) ∉ routines.keys := by
  obtain ⟨k, hk, hfree⟩ :=
    Names.exists_not_mem_of_injective (overloadKey_injective name) routines.keys
  rw [← Keyed.contains_iff_mem_keys, Bool.not_eq_true] at hfree ⊢
  unfold overloadCount
  cases hfind : ((List.range (routines.size + 1)).map (· + 1)).find? fun k =>
      !routines.contains (overloadKey name k) with
  | none =>
    rw [Keyed.keys_length] at hk
    have htaken := List.find?_eq_none.1 hfind (k + 1)
      (List.mem_map_of_mem (List.mem_range.2 hk))
    rw [hfree] at htaken
    exact absurd rfl htaken
  | some n =>
    have hn := List.find?_some hfind
    rwa [Bool.not_eq_true'] at hn

theorem values_insert_overload (routines : Keyed Routine) (f : Routine) :
    (routines.insert (overloadKey f.name (overloadCount routines f.name)) f).values.Perm
      (f :: routines.values) :=
  (Keyed.insertEntry_perm (overloadCount_free routines f.name)).map Prod.snd

section

variable {schema : String}

theorem routines_mem_edits {context : Context} {rest : List (List Char)} {form : Form}
    (h : .part schema .routines ∈ (edits context rest form).map Edit.object) :
    ∃ written name first, form = .createFunction written name first ∧
      schemaOr written context.schema = schema := by
  cases form with
  | createFunction written name first =>
    have hschema : schema = schemaOr written context.schema := by simpa [edits] using h
    exact ⟨written, name, first, rfl, hschema.symm⟩
  | createSchema other owner =>
    rw [edits] at h
    cases hgiven : given owner <;> simp [hgiven, createSchemaEdits] at h
  | _ => simp [edits] at h

theorem advance_createFunction {p q : Catalog × Context} {t : Taken}
    {written : Option NameToken} {name : NameToken} {first : List Char}
    (hform : Form.ofLine? t.statement.first = some (.createFunction written name first))
    (h : advance p t.statement = some q) :
    let schema := schemaOr written p.2.schema
    (q.1.schema schema).routines.values.Perm
      ((routineOf? schema p.2 t).toList ++ (p.1.schema schema).routines.values) := by
  intro schema
  obtain ⟨new, hnew, hcontent⟩ := content_advance hform rfl h
  cases hnew
  let f : Routine :=
    { name := name.name, statement := bodyText first t.statement.rest, context := p.2 }
  have hf : routineOf? schema p.2 t = some f := by
    rw [routineOf?, hform]
    exact if_pos (schemaOr_eq_placeOf written p.2).symm
  have hroutines : (q.1.schema schema).routines =
      (p.1.schema schema).routines.insert
        (overloadKey f.name (overloadCount (p.1.schema schema).routines f.name)) f := hcontent
  rw [hf, hroutines]
  exact values_insert_overload _ f

theorem advance_routines {p q : Catalog × Context} {t : Taken}
    (h : advance p t.statement = some q) :
    (q.1.schema schema).routines.values.Perm
      ((routineOf? schema p.2 t).toList ++ (p.1.schema schema).routines.values) := by
  obtain ⟨form, hform, -, hedits⟩ := advance_eq_some h
  by_cases hmem : .part schema .routines ∈ (edits p.2 t.statement.rest form).map Edit.object
  · obtain ⟨written, name, first, rfl, rfl⟩ := routines_mem_edits hmem
    exact advance_createFunction hform h
  · have hsame : (q.1.schema schema).routines = (p.1.schema schema).routines :=
      Catalog.content_editAll hedits (x := .part schema .routines) hmem
    have hnone : routineOf? schema p.2 t = none := by
      rw [routineOf?, hform]
      cases form with
      | createFunction written name first =>
        refine if_neg fun hschema => hmem ?_
        rw [← schemaOr_eq_placeOf] at hschema
        simp [edits, hschema]
      | _ => rfl
    rw [hsame, hnone]
    exact .refl _

theorem load_routines (h : load ({}, {}) ts = some q) :
    (q.1.schema schema).routines.values.Perm (inContext (routineOf? schema) ts) := by
  refine load_induction (motive := fun ts q =>
    (q.1.schema schema).routines.values.Perm (inContext (routineOf? schema) ts)) (.refl _) ?_ h
  intro ts t p q hload hp hq
  rw [inContext_concat, ← load_context hload]
  exact (advance_routines hq).trans ((hp.append_left _).trans List.perm_append_comm)

end

end SchemaTransfer.Load
