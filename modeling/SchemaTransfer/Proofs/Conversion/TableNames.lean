import SchemaTransfer.Proofs.Target.Identifier
import SchemaTransfer.Proofs.Target.TableText

/-!
# Names of tables and columns through a conversion

Every table that a dump declares is created once. The names of tables and columns are written as
they are normalized, and no other name is looked for where two of them come to be the same: so two
tables of a schema, or two columns of a table, that differ in case and hyphens only get one name.
-/
namespace SchemaTransfer
open Load Dump

variable {withTablespaces : Bool} {verdicts : List Verdict} {lines : List (List Char)}
  {r : Conversion}

/-- The script to run before loading creates what is declared, with the columns of the last
declaration. -/
theorem Converts.mem_tablesCreated (h : Converts withTablespaces verdicts lines r)
    (schema name : String) (columns : List String) :
    (⟨schema, name⟩, columns) ∈ r.scripts.before.tablesCreated ↔
      ((statements lines).reverse.find? (declares schema name)).map
        (declaredColumns schema name) = some columns := by
  have hkept : r.session.catalog.WellKept := load_wellKept Catalog.wellKept_empty h.loads
  rw [emitBefore_tablesCreated (emitScripts_eq_ok h.emits).1, hkept.mem_created_iff,
    load_columnNames h.loads]
  exact Eq.congr_left Option.or_none

/-- A declaration has names of tables and columns without double quotes. -/
theorem Converts.quoteFree (h : Converts withTablespaces verdicts lines r)
    {a : TableName × List String} (ha : a ∈ r.scripts.before.tablesCreated) :
    '"' ∉ a.1.name.toList ∧ ∀ c ∈ a.2, '"' ∉ c.toList := by
  obtain ⟨t, ht, hcolumns⟩ :=
    Option.map_eq_some_iff.1 ((h.mem_tablesCreated a.1.schema a.1.name a.2).1 ha)
  have hdeclares : declares a.1.schema a.1.name t = true := List.find?_some ht
  constructor
  · exact (isName_of_createTable (of_decide_eq_true hdeclares)).2.quoteFree
  · intro c hc
    rw [← hcolumns] at hc
    exact (isName_of_declaredColumns c hc).quoteFree

/-- The script to run before loading creates every declared table once, with the columns of its
last declaration. Two tables of a schema get one name exactly if their names have one normalized
form, and so do two columns of a table. The text of the script creates these tables under these
names, and no others. -/
theorem convert_tableNames (hr : (convert withTablespaces verdicts lines).outcome = .ok r) :
    let created := r.scripts.before.tablesCreated
    (created.map (·.1)).Nodup ∧
    (∀ schema name columns, (⟨schema, name⟩, columns) ∈ created ↔
      ((statements lines).reverse.find? (declares schema name)).map
        (declaredColumns schema name) = some columns) ∧
    (∀ a ∈ created, ∀ b ∈ created, a.1.schema = b.1.schema →
      (a.1.render = b.1.render ↔ normalize a.1.name = normalize b.1.name)) ∧
    (∀ a ∈ created, ∀ c ∈ a.2, ∀ d ∈ a.2,
      (identifier c = identifier d ↔ normalize c = normalize d)) ∧
    ∃ texts, r.scripts.before.render = unlines texts ++ "\n" ∧
      List.Forall₂ CreatesTable created (texts.filter (begins "CREATE TABLE ")) := by
  intro created
  have hconverts := converts_of_ok hr
  have hkept : r.session.catalog.WellKept := load_wellKept Catalog.wellKept_empty hconverts.loads
  have hbefore := (emitScripts_eq_ok hconverts.emits).1
  have hcreated : created = r.session.catalog.tables.map Before.created :=
    emitBefore_tablesCreated hbefore
  refine ⟨?_, hconverts.mem_tablesCreated, ?_, ?_, ?_⟩
  · rw [hcreated]
    exact hkept.created_nodup
  · intro a ha b hb hschema
    rw [TableName.render_inj hschema]
    exact identifier_inj (hconverts.quoteFree ha).1 (hconverts.quoteFree hb).1
  · intro a ha c hc d hd
    exact identifier_inj ((hconverts.quoteFree ha).2 c hc) ((hconverts.quoteFree ha).2 d hd)
  · rw [hcreated]
    exact emitBefore_tableTexts hbefore

/-- Two tables of one schema, the first with one column and the second with two. -/
def twoTables (first second column : String) : List (List Char) :=
  ["CREATE TABLE \"S\".\"" ++ first ++ "\"  (", "  \"X\" INTEGER );",
    "CREATE TABLE \"S\".\"" ++ second ++ "\"  (", "  \"X\" INTEGER ,",
    "  \"" ++ column ++ "\" INTEGER );"].map String.toList

/-- Whether a dump loads and all its columns can be written. -/
def convertible (lines : List (List Char)) : Bool :=
  (load ({}, {}) (statements lines)).any fun p =>
    p.1.tables.all fun x => x.2.columns.all fun k => k.defaultValue?.toOption.isSome

theorem exists_convert (h : convertible lines = true) (withTablespaces : Bool)
    (verdicts : List Verdict) : ∃ r, (convert withTablespaces verdicts lines).outcome = .ok r := by
  obtain ⟨p, hload, hcolumns⟩ := (Option.any_eq_true _ _).1 h
  simp only [List.all_eq_true] at hcolumns
  obtain ⟨scripts, e, hemit⟩ :=
    emitScripts_of_columns withTablespaces (.start p.1 verdicts) hcolumns
  obtain ⟨r, hr, -⟩ := exists_converts hload hemit
  exact ⟨r, hr⟩

theorem convert_twoTables : ∃ r, (convert false [] (twoTables "A-B" "C" "Y")).outcome = .ok r ∧
    (⟨"S", "A-B"⟩, ["X"]) ∈ r.scripts.before.tablesCreated ∧
    (⟨"S", "C"⟩, ["X", "Y"]) ∈ r.scripts.before.tablesCreated ∧
    TableName.render ⟨"S", "A-B"⟩ ≠ TableName.render ⟨"S", "C"⟩ ∧
    identifier "X" ≠ identifier "Y" := by
  have hconvertible : convertible (twoTables "A-B" "C" "Y") = true := by decide +kernel
  obtain ⟨r, hr⟩ := exists_convert hconvertible false []
  obtain ⟨-, hdeclared, htables, hcolumns, -⟩ := convert_tableNames hr
  have hfirst := (hdeclared "S" "A-B" ["X"]).2 (by decide +kernel)
  have hsecond := (hdeclared "S" "C" ["X", "Y"]).2 (by decide +kernel)
  refine ⟨r, hr, hfirst, hsecond, ?_, ?_⟩
  · intro hsame
    exact absurd ((htables _ hfirst _ hsecond rfl).1 hsame) (by decide +kernel)
  · intro hsame
    have hnormal := (hcolumns _ hsecond "X" (by decide) "Y" (by decide)).1 hsame
    exact absurd hnormal (by decide +kernel)

/-- Hyphens and case alone do not keep two tables of a schema apart, nor two columns of a table. -/
theorem tableNames_merged :
    (¬∀ (withTablespaces : Bool) (verdicts : List Verdict) (lines : List (List Char))
      (r : Conversion), (convert withTablespaces verdicts lines).outcome = .ok r →
      ∀ a ∈ r.scripts.before.tablesCreated, ∀ b ∈ r.scripts.before.tablesCreated,
        a.1.schema = b.1.schema → a.1.name ≠ b.1.name → a.1.render ≠ b.1.render) ∧
    ¬∀ (withTablespaces : Bool) (verdicts : List Verdict) (lines : List (List Char))
      (r : Conversion), (convert withTablespaces verdicts lines).outcome = .ok r →
      ∀ a ∈ r.scripts.before.tablesCreated, ∀ c ∈ a.2, ∀ d ∈ a.2, c ≠ d →
        identifier c ≠ identifier d := by
  have hconvertible : convertible (twoTables "A-B" "AB" "x") = true := by decide +kernel
  obtain ⟨r, hr⟩ := exists_convert hconvertible false []
  have hcreated := (converts_of_ok hr).mem_tablesCreated
  have hfirst := (hcreated "S" "A-B" ["X"]).2 (by decide +kernel)
  have hsecond := (hcreated "S" "AB" ["X", "x"]).2 (by decide +kernel)
  constructor
  · intro h
    exact h false [] _ r hr _ hfirst _ hsecond rfl (by decide) (by decide +kernel)
  · intro h
    exact h false [] _ r hr _ hsecond "X" (by decide) "x" (by decide) (by decide)
      (by decide +kernel)

end SchemaTransfer
