import SchemaTransfer.Proofs.Load.Index
import SchemaTransfer.Proofs.Target.Index

/-!
# Indexes through a conversion

The script to run after loading creates the indexes of a table that the dump creates on it, except
that of several with one name only the last is known. The database counts names of indexes by
schema, so a table may have indexes of one name in several schemas.
-/
namespace SchemaTransfer
open Load Dump

/-- Where objects are kept under their own names, the tables of a name are at most one. -/
theorem Catalog.WellKept.indexesNamed {c : Catalog} (h : c.WellKept) (schema name : String) :
    After.indexesNamed ⟨schema, name⟩ c.tables =
      (c.table? schema name).toList.flatMap (·.indexes.values) := by
  have hschema (s : Schema) : After.indexesNamed ⟨schema, name⟩ (s.tables.values.map (s, ·)) =
      s.tables.entries.flatMap fun e =>
        if s.name = schema ∧ e.2.name = name then e.2.indexes.values else [] := by
    unfold After.indexesNamed Keyed.values
    rw [List.map_map]
    induction s.tables.entries with
    | nil => rfl
    | cons e es ih =>
      rw [List.map_cons, List.flatMap_cons, ← ih, List.filter_cons]
      by_cases hname : s.name = schema ∧ e.2.name = name <;> simp [hname]
  have hall : After.indexesNamed ⟨schema, name⟩ c.tables =
      c.schemas.entries.flatMap fun e =>
        After.indexesNamed ⟨schema, name⟩ (e.2.tables.values.map (e.2, ·)) := by
    unfold After.indexesNamed Catalog.tables Keyed.values
    rw [List.flatMap_map, List.filter_flatMap, List.flatMap_assoc]
  rw [hall, c.schemas.flatMap_entries schema fun e he hkey => ?_, Catalog.table?]
  · cases hs : c.schemas.get? schema with
    | none => rfl
    | some s =>
      have hkept : s.WellKept c.roles schema := h.schemas.of_get? hs
      rw [Option.toList_some, List.flatMap_singleton, hschema,
        s.tables.flatMap_entries name fun e he hkey => ?_]
      · cases ht : s.tables.get? name with
        | none => simp [ht]
        | some t =>
          have hname : t.name = name := (hkept.tables.of_get? ht).name
          simp [ht, hkept.name, hname]
      · have hname : e.2.name = e.1 := (hkept.tables e he).name
        rw [if_neg fun hsame => hkey (hname ▸ hsame.2)]
  · have hname : e.2.name = e.1 := (h.schemas e he).name
    rw [hschema]
    exact List.flatMap_eq_nil_iff.2 fun _ _ => if_neg fun hsame => hkey (hname ▸ hsame.1)

/-- A table that is declared once has all its indexes created in the script to run after loading,
each by statements of its own, if no two of them have one name. Of several with one name it is
the last that is created. -/
theorem convert_indexes (withTablespaces : Bool) (verdicts : List Verdict)
    {lines : List (List Char)} (schema name : String) {r : Conversion}
    (hr : (convert withTablespaces verdicts lines).outcome = .ok r)
    (honce : (statements lines).countP (declares schema name) = 1) :
    let created := (statements lines).filterMap (indexOn? schema name)
    let kept := (Keyed.ofList (created.map fun i => (i.name, i))).values
    (∃ groups, List.Forall₂ (Index.CreatedBy ⟨schema, name⟩) kept groups ∧
      r.scripts.after.indexesOn ⟨schema, name⟩ = groups.flatten) ∧
    ((created.map (·.name)).Nodup → kept.Perm created) := by
  intro created kept
  have hconverts := converts_of_ok hr
  refine ⟨?_, fun hnodup => ?_⟩
  · obtain ⟨t, ht, hindexes⟩ := load_indexes hconverts.loads honce
    have hkept : r.session.catalog.WellKept :=
      load_wellKept Catalog.wellKept_empty hconverts.loads
    obtain ⟨-, e, he⟩ := emitScripts_eq_ok hconverts.emits
    obtain ⟨groups, hgroups, hafter⟩ := emitAfter_indexes withTablespaces r.session.catalog
      ⟨schema, name⟩ e
    refine ⟨groups, ?_, by rw [← he]; exact hafter⟩
    rwa [hkept.indexesNamed, ht, Option.toList_some, List.flatMap_singleton, hindexes] at hgroups
  · have hperm := Keyed.ofList_perm (created.map fun i => (i.name, i))
      (by rw [List.map_map]; exact hnodup)
    have hvalues := hperm.map (·.2)
    rwa [List.map_map, show ((·.2) ∘ fun i : Index => (i.name, i)) = id from rfl, List.map_id]
      at hvalues

/-- A table with an index on its column, and a second one under a name. -/
def twoIndexes (schema index : String) : List (List Char) :=
  ["CREATE TABLE \"S\".\"T\"  (", "  \"A\" INTEGER );",
    "CREATE INDEX \"I\".\"X\" ON \"S\".\"T\"", "  (\"A\" ASC);",
    "CREATE INDEX \"" ++ schema ++ "\".\"" ++ index ++ "\" ON \"S\".\"T\"",
    "  (\"A\" DESC);"].map String.toList

theorem convert_twoIndexes : ∃ r groups,
    (convert false [] (twoIndexes "I" "Y")).outcome = .ok r ∧
    List.Forall₂ (Index.CreatedBy ⟨"S", "T"⟩)
      [{ name := "X", indexSchema := "I", columns := [⟨"A", some "ASC"⟩] },
        { name := "Y", indexSchema := "I", columns := [⟨"A", some "DESC"⟩] }] groups ∧
    r.scripts.after.indexesOn ⟨"S", "T"⟩ = groups.flatten := by
  have hconverts : (convert false [] (twoIndexes "I" "Y")).outcome.toOption.isSome = true := by
    decide +kernel
  cases hr : (convert false [] (twoIndexes "I" "Y")).outcome with
  | error failure =>
    rw [hr] at hconverts
    cases hconverts
  | ok r =>
    obtain ⟨⟨groups, hgroups, hafter⟩, -⟩ :=
      convert_indexes false [] "S" "T" hr (by decide +kernel)
    have hcreated : (statements (twoIndexes "I" "Y")).filterMap (indexOn? "S" "T") =
        [{ name := "X", indexSchema := "I", columns := [⟨"A", some "ASC"⟩] },
          { name := "Y", indexSchema := "I", columns := [⟨"A", some "DESC"⟩] }] := by
      decide +kernel
    rw [hcreated] at hgroups
    exact ⟨r, groups, rfl, hgroups, hafter⟩

/-- The earlier of two indexes is lost where only the schemas of their names tell them apart. -/
theorem indexes_overwritten : ¬∀ (withTablespaces : Bool) (verdicts : List Verdict)
    (lines : List (List Char)) (r : Conversion) (schema name : String),
    (convert withTablespaces verdicts lines).outcome = .ok r →
    (statements lines).countP (declares schema name) = 1 →
    (((statements lines).filterMap (indexOn? schema name)).map
      fun i => (i.indexSchema, i.name)).Nodup →
    ∀ i ∈ (statements lines).filterMap (indexOn? schema name), ∃ tablespace index covering,
      ∀ item ∈ i.items ⟨schema, name⟩ tablespace index covering, item ∈ r.scripts.after := by
  intro h
  have hafter : ((convert false [] (twoIndexes "J" "X")).outcome.toOption.map
      fun r => r.scripts.after) = some [.clientEncoding, .blank,
        .createIndex false "x" ⟨"S", "T"⟩ [⟨"A", some "DESC"⟩] none] := by decide +kernel
  cases hr : (convert false [] (twoIndexes "J" "X")).outcome with
  | error failure =>
    rw [hr] at hafter
    cases hafter
  | ok r =>
    rw [hr] at hafter
    have hscript : r.scripts.after = _ := Option.some.inj hafter
    have hcreated : (statements (twoIndexes "J" "X")).filterMap (indexOn? "S" "T") =
        [{ name := "X", indexSchema := "I", columns := [⟨"A", some "ASC"⟩] },
          { name := "X", indexSchema := "J", columns := [⟨"A", some "DESC"⟩] }] := by
      decide +kernel
    obtain ⟨tablespace, index, covering, hitems⟩ := h false [] _ r "S" "T" hr (by decide +kernel)
      (by rw [hcreated]; decide)
      { name := "X", indexSchema := "I", columns := [⟨"A", some "ASC"⟩] }
      (by rw [hcreated]; exact List.mem_cons_self)
    have hitem := hitems _ List.mem_cons_self
    rw [hscript] at hitem
    simp at hitem

end SchemaTransfer
