import SchemaTransfer.Proofs.Conversion.SearchPath
import SchemaTransfer.Proofs.Target.Piece
import SchemaTransfer.Proofs.Target.Tables

/-!
# Identifiers through a conversion

The script to run before loading holds the names of all schemas, tables and columns. Each name is
written so that the target reads its normalized form where that is a reserved word or has the form
of an unquoted name. A name with a blank, or one that begins with a digit, is written as it is and
read as something else.
-/
namespace SchemaTransfer
open Load Piece

theorem name_mem_columns {cs : List ColumnItem} {c : ColumnItem} (h : c ∈ cs) :
    .name c.name ∈ columns cs := by
  induction cs using columns.induct with
  | case1 => cases h
  | case2 d =>
    obtain rfl := List.mem_singleton.1 h
    simp [columns, column]
  | case3 d rest hne ih =>
    rw [columns.eq_3 _ _ hne, List.append_assoc, List.mem_append]
    rcases List.mem_cons.1 h with rfl | h
    · exact .inl (by simp [column])
    · exact .inr (List.mem_append_right _ (ih h))

/-- A table is created with its own name, that of its schema and those of its columns. -/
theorem Item.name_mem_pieces {item : Item} {table : TableName} {columns : List String}
    (h : item.tableCreated? = some (table, columns)) {n : String}
    (hn : n ∈ table.schema :: table.name :: columns) : .name n ∈ item.pieces := by
  unfold tableCreated? at h
  split at h
  · next tablespace =>
    cases h
    simp only [pieces, qualified, List.mem_append, List.mem_cons]
    rcases List.mem_cons.1 hn with rfl | hn
    · simp
    · rcases List.mem_cons.1 hn with rfl | hn
      · simp
      · obtain ⟨c, hc, rfl⟩ := List.mem_map.1 hn
        simp [name_mem_columns hc]
  · cases h

theorem clientEncoding_mem_before {withTablespaces : Bool} {c : Catalog} {e : Emission}
    {before : Script} (h : ((emitBefore withTablespaces c).run e).1 = .ok before) :
    .clientEncoding ∈ before := by
  obtain ⟨tablespaces, parts, hpreamble⟩ := Before.yields_preamble withTablespaces c e
  obtain ⟨tables, -, -, rfl⟩ := emitBefore_eq_ok h
  rw [hpreamble.layout]
  simp

/-- The statement that creates a table of the catalog. -/
theorem tableCreated_mem_before {withTablespaces : Bool} {c : Catalog} {e : Emission}
    {before : Script} (h : ((emitBefore withTablespaces c).run e).1 = .ok before)
    {x : Schema × Table} (hx : x ∈ c.tables) :
    ∃ item ∈ before, item.tableCreated? = some (Before.created x) ∧
      ∀ n ∈ x.1.name :: x.2.name :: x.2.columns.map (·.name), .name n ∈ item.pieces := by
  have hcreated : Before.created x ∈ before.tablesCreated := by
    rw [emitBefore_tablesCreated h]
    exact List.mem_map_of_mem hx
  obtain ⟨item, hitem, htable⟩ := List.mem_filterMap.1 hcreated
  refine ⟨item, hitem, htable, fun n hn => Item.name_mem_pieces htable ?_⟩
  have hcolumns : (x.2.sortedColumns.map (·.name)).Perm (x.2.columns.map (·.name)) :=
    (List.mergeSort_perm _ _).map _
  simpa [Before.created, hcolumns.mem_iff] using hn

/-- In a dump that converts, the script to run before loading creates all schemas and tables of the
catalog and holds their names and those of the columns. Where it holds a name, the target reads the
normalized form of the name, and goes on right behind what was written for it, exactly if the name
is protected. -/
theorem convert_identifiers {withTablespaces : Bool} {verdicts : List Verdict}
    {lines : List (List Char)} {r : Conversion}
    (hr : (convert withTablespaces verdicts lines).outcome = .ok r) (wide : Char → Bool) :
    (∀ s ∈ r.session.catalog.schemas.values, ∃ item ∈ r.scripts.before,
      item = Before.schemaItem s ∧ .name s.name ∈ item.pieces) ∧
    (∀ x ∈ r.session.catalog.tables, ∃ item ∈ r.scripts.before,
      item.tableCreated? = some (Before.created x) ∧
      ∀ n ∈ x.1.name :: x.2.name :: x.2.columns.map (·.name), .name n ∈ item.pieces) ∧
    r.scripts.before.render = renderAll r.scripts.before.pieces ∧
    ∀ pre n post, r.scripts.before.pieces = pre ++ .name n :: post →
      (Token.Reads wide n (renderAll post).toList ↔ Token.IsProtected wide n) := by
  have hbefore := (emitScripts_eq_ok (converts_of_ok hr).emits).1
  refine ⟨fun s hs => ?_, fun x => tableCreated_mem_before hbefore, ?_,
    fun pre n post hpieces => ?_⟩
  · refine ⟨_, schemaItem_mem_before hbefore hs, rfl, ?_⟩
    simp [Before.schemaItem, Item.pieces]
  · exact (Script.renderAll_pieces (List.ne_nil_of_mem (clientEncoding_mem_before hbefore))).symm
  · have hspaced := Script.spaced_pieces r.scripts.before
    rw [hpieces] at hspaced
    exact Token.reads_iff wide n hspaced.breaks

/-- A table with one column. -/
def oneColumn (table column : String) : List (List Char) :=
  ["CREATE TABLE \"S\".\"" ++ table ++ "\"  (", "  \"" ++ column ++ "\" INTEGER );"].map
    String.toList

/-- What was read of the names of tables and their columns. -/
def tableNames (r : Conversion) : List (List String) :=
  r.session.catalog.tables.map fun x => x.1.name :: x.2.name :: x.2.columns.map (·.name)

theorem exists_of_tableNames {withTablespaces : Bool} {verdicts : List Verdict}
    {lines : List (List Char)} {names : List String}
    (h : (convert withTablespaces verdicts lines).outcome.toOption.map tableNames = some [names]) :
    ∃ r, (convert withTablespaces verdicts lines).outcome = .ok r ∧
      ∃ x ∈ r.session.catalog.tables, x.1.name :: x.2.name :: x.2.columns.map (·.name) = names := by
  obtain ⟨r, hr, hread⟩ := exists_ok_of_toOption_map h
  have hnames : names ∈ tableNames r := hread ▸ List.mem_singleton_self names
  exact ⟨r, hr, List.mem_map.1 hnames⟩

/-- A table whose name is a reserved word has a column whose name begins with a digit. -/
theorem convert_reservedTable : ∃ r, (convert false [] (oneColumn "ORDER" "1ST")).outcome = .ok r ∧
    (∃ pre post, r.scripts.before.pieces = pre ++ .name "ORDER" :: post ∧
      Token.Reads (fun _ => true) "ORDER" (renderAll post).toList) ∧
    ∃ pre post, r.scripts.before.pieces = pre ++ .name "1ST" :: post ∧
      ¬Token.Reads (fun _ => true) "1ST" (renderAll post).toList := by
  have hread : (convert false [] (oneColumn "ORDER" "1ST")).outcome.toOption.map tableNames =
      some [["S", "ORDER", "1ST"]] := by
    decide +kernel
  obtain ⟨r, hr, x, hx, hnames⟩ := exists_of_tableNames hread
  obtain ⟨-, htables, -, hplaces⟩ := convert_identifiers hr fun _ => true
  obtain ⟨item, hitem, -, hmem⟩ := htables x hx
  rw [hnames] at hmem
  obtain ⟨pre, post, horder⟩ := Script.exists_pieces hitem (hmem "ORDER" (by decide))
  obtain ⟨pre', post', hfirst⟩ := Script.exists_pieces hitem (hmem "1ST" (by decide))
  refine ⟨r, hr, ⟨pre, post, horder, ?_⟩, pre', post', hfirst, ?_⟩
  · exact (hplaces _ _ _ horder).2 (by decide +kernel)
  · exact mt (hplaces _ _ _ hfirst).1 (by decide +kernel)

/-- A name with a blank is written without quotes and taken apart, whatever counts as a letter. -/
theorem blankName_taken_apart : ¬∃ wide : Char → Bool, ∀ (withTablespaces : Bool)
    (verdicts : List Verdict) (lines : List (List Char)) (r : Conversion),
    (convert withTablespaces verdicts lines).outcome = .ok r →
    ∀ x ∈ r.session.catalog.tables, withoutDashes x.2.name ≠ "" →
      ∀ pre post, r.scripts.before.pieces = pre ++ .name x.2.name :: post →
        Token.Reads wide x.2.name (renderAll post).toList := by
  rintro ⟨wide, h⟩
  have hread : (convert false [] (oneColumn "ORDER ITEMS" "A")).outcome.toOption.map tableNames =
      some [["S", "ORDER ITEMS", "A"]] := by
    decide +kernel
  obtain ⟨r, hr, x, hx, hnames⟩ := exists_of_tableNames hread
  obtain ⟨-, hnames⟩ := List.cons.inj hnames
  obtain ⟨hname, -⟩ := List.cons.inj hnames
  obtain ⟨item, hitem, -, hmem⟩ :=
    tableCreated_mem_before (emitScripts_eq_ok (converts_of_ok hr).emits).1 hx
  obtain ⟨pre, post, hpieces⟩ :=
    Script.exists_pieces hitem (hmem x.2.name (List.mem_cons_of_mem _ List.mem_cons_self))
  have hread := h false [] _ r hr x hx (by rw [hname]; decide) pre post hpieces
  have hspaced := Script.spaced_pieces r.scripts.before
  rw [hpieces] at hspaced
  rw [Token.reads_iff wide _ hspaced.breaks, hname] at hread
  exact Token.not_isProtected (c := ' ') (by decide) (by decide +kernel) hread

end SchemaTransfer
