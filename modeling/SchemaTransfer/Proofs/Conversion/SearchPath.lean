import SchemaTransfer.Proofs.Conversion.View
import SchemaTransfer.Proofs.Target.Comment
import SchemaTransfer.Proofs.Target.SearchPath

/-!
# Schemas in search paths

The search path ahead of a view is there to find what the view refers to without a schema. So it
has to name the schemas as the statements do that create them.
-/
namespace SchemaTransfer
open Load Dump Emit

namespace Load

theorem isName_contextAfter (ts : List Taken) : Scan.IsName (contextAfter ts).schema := by
  unfold contextAfter
  cases hschema : ts.reverse.findSome? schemaSet? with
  | none => exact ⟨List.not_mem_nil, rfl⟩
  | some schema =>
    obtain ⟨t, -, ht⟩ := List.exists_of_findSome?_eq_some hschema
    unfold schemaSet? at ht
    split at ht
    · next hform =>
      cases ht
      exact isName_of_setSchema hform
    · cases ht

theorem mem_inContext {α : Type} {f : Context → Taken → Option α} {ts : List Taken} {a : α}
    (h : a ∈ inContext f ts) : ∃ us t, f (contextAfter us) t = some a := by
  obtain ⟨⟨t, i⟩, -, ha⟩ := List.mem_filterMap.1 h
  exact ⟨_, t, ha⟩

theorem isName_of_mem_views {ts : List Taken} {q : Catalog × Context}
    (h : load ({}, {}) ts = some q) {v : View} (hv : v ∈ q.1.views) :
    Scan.IsName v.context.schema := by
  rw [load_views h] at hv
  obtain ⟨us, t, hview⟩ := mem_inContext hv
  unfold viewOf? at hview
  split at hview
  · cases hview
    exact isName_contextAfter us
  · cases hview

end Load

theorem schemaItem_mem_before {withTablespaces : Bool} {c : Catalog} {e : Emission}
    {before : Script} (h : ((emitBefore withTablespaces c).run e).1 = .ok before) {s : Schema}
    (hs : s ∈ c.schemas.values) : Before.schemaItem s ∈ before := by
  obtain ⟨tablespaces, parts, hpreamble⟩ := Before.yields_preamble withTablespaces c e
  obtain ⟨tables, -, -, rfl⟩ := emitBefore_eq_ok h
  refine List.mem_append_left _ ?_
  rw [hpreamble.layout]
  exact List.mem_append_left _ (List.mem_append_right _ (List.mem_map_of_mem hs))

open SearchPath

/-- In a dump that converts, all schemas of the catalog are created in the first script, and each
view of the third one stands behind the search path of its context. The first entry of that is the
current schema of the view, written as where it is created, exactly if its name is plain: there is
something of it, without blanks around it and without hyphens, and it is no reserved word. The same
is true of each piece of the current path that names a schema. -/
theorem searchPath_of_schemas {withTablespaces : Bool} {verdicts : List Verdict}
    {lines : List (List Char)} {r : Conversion}
    (h : (convert withTablespaces verdicts lines).outcome = .ok r) :
    (∀ s ∈ r.session.catalog.schemas.values, Before.schemaItem s ∈ r.scripts.before) ∧
    (∃ pre groups post, r.scripts.unsure = pre ++ groups.flatten ++ post ∧
      List.Forall₂ Unsure.IsViewGroup r.session.catalog.views groups ∧
      ∀ item ∈ pre ++ post, item.isOfView = false) ∧
    ∀ v ∈ r.session.catalog.views, ∀ s ∈ r.session.catalog.schemas.values,
      (v.context.schema = s.name →
        ((entries v.context).head? = some (identifier s.name) ↔ IsPlain s.name)) ∧
      ∀ piece ∈ List.splitOn ',' v.context.path.toList, NamesSchema piece s.name →
        (entry piece ∈ entries v.context ∧ entry piece = identifier s.name ↔ IsPlain s.name) := by
  obtain ⟨hloads, -, hemits⟩ := converts_of_ok h
  obtain ⟨hbefore, -, e, hunsure⟩ := emitScripts_parts hemits
  refine ⟨fun s => schemaItem_mem_before hbefore, ?_, fun v hv s _ => ⟨?_, fun piece => piece_iff⟩⟩
  · rw [← hunsure]
    exact yields_emitUnsure_views _ e
  · intro hschema
    rw [← hschema]
    exact head?_entries_iff (isName_of_mem_views hloads hv)

/-- A view whose current schema has a plain name. The path names it too, behind a schema whose name
is a reserved word. -/
def ordered : List (List Char) :=
  ["CREATE SCHEMA \"A\";", "CREATE SCHEMA \"ORDER\";", "SET CURRENT SCHEMA = \"A\";",
    "SET CURRENT PATH = \"ORDER\",\"A\";", "CREATE VIEW V AS SELECT 1 FROM T;"].map String.toList

/-- What was read of the schemas and the contexts of the views. -/
def schemasAndContexts (r : Conversion) : List String × List Context :=
  (r.session.catalog.schemas.values.map (·.name), r.session.catalog.views.map (·.context))

theorem exists_of_schemasAndContexts {withTablespaces : Bool} {verdicts : List Verdict}
    {lines : List (List Char)} {names : List String} {context : Context}
    (h : (convert withTablespaces verdicts lines).outcome.toOption.map schemasAndContexts =
      some (names, [context])) :
    ∃ r, (convert withTablespaces verdicts lines).outcome = .ok r ∧
      (∃ v ∈ r.session.catalog.views, v.context = context) ∧
      ∀ name ∈ names, ∃ s ∈ r.session.catalog.schemas.values, s.name = name := by
  obtain ⟨r, hr, hread⟩ := exists_ok_of_toOption_map h
  obtain ⟨hnames, hcontexts⟩ := Prod.mk.inj hread
  refine ⟨r, hr, List.mem_map.1 (hcontexts.symm ▸ List.mem_singleton_self _), fun name hname => ?_⟩
  exact List.mem_map.1 (hnames.symm ▸ hname)

theorem searchPath_of_ordered :
    ∃ r, (convert false [] ordered).outcome = .ok r ∧ ∃ v ∈ r.session.catalog.views,
      (entries v.context).head? = some (identifier "A") ∧
      (entry "\"A\"".toList ∈ entries v.context ∧ entry "\"A\"".toList = identifier "A") ∧
      ¬(entry "\"ORDER\"".toList ∈ entries v.context ∧
        entry "\"ORDER\"".toList = identifier "ORDER") := by
  have hread : (convert false [] ordered).outcome.toOption.map schemasAndContexts =
      some (["A", "ORDER"], [{ schema := "A", path := "\"ORDER\",\"A\"" }]) := by
    decide +kernel
  obtain ⟨r, hr, ⟨v, hv, hcontext⟩, hschemas⟩ := exists_of_schemasAndContexts hread
  obtain ⟨a, ha, hnamea⟩ := hschemas "A" (by simp)
  obtain ⟨o, ho, hnameo⟩ := hschemas "ORDER" (by simp)
  obtain ⟨-, -, hpath⟩ := searchPath_of_schemas hr
  have hfirst := (hpath v hv a ha).1
  have ha := (hpath v hv a ha).2 "\"A\"".toList
  have ho := (hpath v hv o ho).2 "\"ORDER\"".toList
  rw [hnamea] at hfirst ha
  rw [hnameo] at ho
  refine ⟨r, hr, v, hv, (hfirst ?_).2 (by decide +kernel), ?_, fun hsame => ?_⟩
  · rw [hcontext]
  · exact (ha (by rw [hcontext]; decide) (by decide +kernel)).2 (by decide +kernel)
  · have hplain := (ho (by rw [hcontext]; decide) (by decide +kernel)).1 hsame
    exact absurd hplain (by decide +kernel)

/-- The search path keeps the hyphen of a schema, which is created without it. -/
theorem searchPath_keeps_hyphen : ¬∀ (withTablespaces : Bool) (verdicts : List Verdict)
    (lines : List (List Char)) (r : Conversion),
    (convert withTablespaces verdicts lines).outcome = .ok r →
    ∀ v ∈ r.session.catalog.views, ∀ s ∈ r.session.catalog.schemas.values,
      v.context.schema = s.name →
        (entries v.context).head? = some (identifier s.name) := by
  intro h
  let hyphen : List (List Char) :=
    ["CREATE SCHEMA \"A-B\";", "SET CURRENT SCHEMA = \"A-B\";",
      "CREATE VIEW V AS SELECT 1 FROM T;"].map String.toList
  have hread : (convert false [] hyphen).outcome.toOption.map schemasAndContexts =
      some (["A-B"], [{ schema := "A-B", path := "" }]) := by
    decide +kernel
  obtain ⟨r, hr, ⟨v, hv, hcontext⟩, hschemas⟩ := exists_of_schemasAndContexts hread
  obtain ⟨s, hs, hname⟩ := hschemas "A-B" (by simp)
  have hfirst := h false [] hyphen r hr v hv s hs (by rw [hcontext, hname])
  rw [hcontext, hname] at hfirst
  exact absurd hfirst (by decide +kernel)

end SchemaTransfer
