import SchemaTransfer.Manifest
import SchemaTransfer.Proofs.Lines
import SchemaTransfer.Proofs.Target.TableText

/-!
# The manifest read back

A line with two fields starts a table, a line with four fields adds a column to it. As long as no
field holds a tab or a line feed the manifest tells everything that was put into it, in the order
of the scripts.
-/
namespace SchemaTransfer

namespace Manifest

structure ColumnEntry where
  name : String
  dumpType : String
  notNull : Bool
  deriving DecidableEq, Inhabited

structure TableEntry where
  schema : String
  name : String
  columns : List ColumnEntry
  deriving DecidableEq, Inhabited

def describeColumn (c : Column) : ColumnEntry := ⟨c.name, c.dumpType, c.notNull⟩

def describe (x : Schema × Table) : TableEntry :=
  ⟨x.1.name, x.2.name, x.2.sortedColumns.map describeColumn⟩

/-- What the manifest tells about a catalog. -/
def entries (c : Catalog) : List TableEntry := c.tables.map describe

inductive Line
  | table (schema name : String)
  | column (entry : ColumnEntry)

/-- What a line says. The first field of a column is empty. -/
def readLine (line : List Char) : Option Line :=
  match List.splitOn '\t' line with
  | [schema, name] => some (.table (.ofList schema) (.ofList name))
  | [_, name, dumpType, nullability] =>
    some (.column ⟨.ofList name, .ofList dumpType, nullability == "NOTNULL".toList⟩)
  | _ => none

/-- The tables, behind columns that belong to a table above the lines. -/
def gather : List Line → List ColumnEntry × List TableEntry
  | [] => ([], [])
  | .table schema name :: lines => ([], ⟨schema, name, (gather lines).1⟩ :: (gather lines).2)
  | .column entry :: lines => (entry :: (gather lines).1, (gather lines).2)

/-- Reads a manifest. Lines of any other form are left out. -/
def read (text : String) : List TableEntry := (gather ((linesOf text).filterMap readLine)).2

/-- A text that fits into a field. -/
def IsField (s : String) : Prop := '\t' ∉ s.toList ∧ '\n' ∉ s.toList

instance (s : String) : Decidable (IsField s) := inferInstanceAs (Decidable (_ ∧ _))

/-- The line of a table, without its end. -/
def tableText (x : Schema × Table) : List Char := x.1.name.toList ++ '\t' :: x.2.name.toList

def nullability (c : Column) : String := if c.notNull then "NOTNULL" else "NULL"

/-- The line of a column, without its end. -/
def columnText (c : Column) : List Char :=
  '\t' :: (c.name.toList ++ '\t' :: (c.dumpType.toList ++ '\t' :: (nullability c).toList))

theorem toList_columnLine (c : Column) : (columnLine c).toList = columnText c ++ ['\n'] := by
  simp [columnLine, columnText, nullability, toString]

theorem toList_tableLines (x : Schema × Table) :
    (tableLines x.1 x.2).toList =
      (tableText x :: x.2.sortedColumns.map columnText).flatMap (· ++ ['\n']) := by
  have hcolumns : (x.2.sortedColumns.map columnLine).flatMap String.toList =
      (x.2.sortedColumns.map columnText).flatMap (· ++ ['\n']) := by
    rw [List.flatMap_map, List.flatMap_map]
    exact List.flatMap_congr fun c _ => toList_columnLine c
  rw [tableLines, String.toList_append, String.toList_join, hcolumns, List.flatMap_cons]
  simp [tableText, toString]

/-- The lines of a manifest, without their ends. -/
def texts (tables : List (Schema × Table)) : List (List Char) :=
  tables.flatMap fun x => tableText x :: x.2.sortedColumns.map columnText

theorem toList_manifest (c : Catalog) :
    c.manifest.toList = (texts c.tables).flatMap (· ++ ['\n']) := by
  rw [Catalog.manifest, String.toList_join, List.flatMap_map, texts, List.flatMap_assoc]
  exact List.flatMap_congr fun x _ => toList_tableLines x

/-- Names and types that fit into fields. -/
structure IsPlain (x : Schema × Table) : Prop where
  schema : IsField x.1.name
  table : IsField x.2.name
  columns : ∀ c ∈ x.2.columns, IsField c.name ∧ IsField c.dumpType

instance (x : Schema × Table) : Decidable (IsPlain x) :=
  decidable_of_iff (IsField x.1.name ∧ IsField x.2.name ∧
      ∀ c ∈ x.2.columns, IsField c.name ∧ IsField c.dumpType)
    ⟨fun ⟨schema, table, columns⟩ => ⟨schema, table, columns⟩,
      fun h => ⟨h.schema, h.table, h.columns⟩⟩

theorem IsPlain.sortedColumns {x : Schema × Table} (h : IsPlain x) :
    ∀ c ∈ x.2.sortedColumns, IsField c.name ∧ IsField c.dumpType :=
  fun c hc => h.columns c ((List.mergeSort_perm _ _).mem_iff.1 hc)

theorem isField_nullability (c : Column) : IsField (nullability c) := by
  unfold nullability IsField
  split <;> decide

theorem lineFeed_not_mem_tableText {x : Schema × Table} (h : IsPlain x) : '\n' ∉ tableText x := by
  simp [tableText, h.schema.2, h.table.2]

theorem lineFeed_not_mem_columnText {c : Column} (h : IsField c.name ∧ IsField c.dumpType) :
    '\n' ∉ columnText c := by
  simp [columnText, h.1.2, h.2.2, (isField_nullability c).2]

theorem linesOf_manifest {c : Catalog} (h : ∀ x ∈ c.tables, IsPlain x) :
    linesOf c.manifest = texts c.tables ++ [[]] := by
  rw [linesOf, toList_manifest]
  refine Lines.splitOn_flatMap fun line hline => ?_
  obtain ⟨x, hx, hline⟩ := List.mem_flatMap.1 hline
  rcases List.mem_cons.1 hline with rfl | hline
  · exact lineFeed_not_mem_tableText (h x hx)
  · obtain ⟨k, hk, rfl⟩ := List.mem_map.1 hline
    exact lineFeed_not_mem_columnText ((h x hx).sortedColumns k hk)

theorem readLine_tableText {x : Schema × Table} (h : IsPlain x) :
    readLine (tableText x) = some (.table x.1.name x.2.name) := by
  have hfields : List.splitOn '\t' (tableText x) = [x.1.name.toList, x.2.name.toList] := by
    rw [tableText, List.splitOn_append_cons_self, List.splitOn_eq_singleton h.schema.1,
      List.splitOn_eq_singleton h.table.1]
    rfl
  rw [readLine, hfields]
  simp only [String.ofList_toList]

theorem nullability_eq_notNull (c : Column) :
    ((nullability c).toList == "NOTNULL".toList) = c.notNull := by
  unfold nullability
  cases c.notNull <;> decide

theorem readLine_columnText {c : Column} (h : IsField c.name ∧ IsField c.dumpType) :
    readLine (columnText c) = some (.column (describeColumn c)) := by
  have hfields : List.splitOn '\t' (columnText c) =
      [[], c.name.toList, c.dumpType.toList, (nullability c).toList] := by
    rw [columnText, ← List.nil_append ('\t' :: _), List.splitOn_append_cons_self,
      List.splitOn_append_cons_self, List.splitOn_append_cons_self,
      List.splitOn_eq_singleton h.1.1, List.splitOn_eq_singleton h.2.1,
      List.splitOn_eq_singleton (isField_nullability c).1]
    rfl
  rw [readLine, hfields]
  simp only [String.ofList_toList, nullability_eq_notNull]
  rfl

theorem filterMap_readLine_columns {columns : List Column}
    (h : ∀ c ∈ columns, IsField c.name ∧ IsField c.dumpType) :
    (columns.map columnText).filterMap readLine =
      (columns.map describeColumn).map .column := by
  induction columns with
  | nil => rfl
  | cons c columns ih =>
    obtain ⟨hc, hcolumns⟩ := List.forall_mem_cons.1 h
    rw [List.map_cons, List.filterMap_cons_some (readLine_columnText hc), ih hcolumns]
    rfl

/-- Columns go to the table above them. -/
theorem gather_columns (entries : List ColumnEntry) (lines : List Line) :
    gather (entries.map .column ++ lines) = (entries ++ (gather lines).1, (gather lines).2) := by
  induction entries with
  | nil => rfl
  | cons entry entries ih => rw [List.map_cons, List.cons_append, gather, ih, List.cons_append]

theorem gather_texts {tables : List (Schema × Table)} (h : ∀ x ∈ tables, IsPlain x) :
    gather ((texts tables).filterMap readLine) = ([], tables.map describe) := by
  induction tables with
  | nil => rfl
  | cons x tables ih =>
    obtain ⟨hx, htables⟩ := List.forall_mem_cons.1 h
    have hcolumns := filterMap_readLine_columns hx.sortedColumns
    have hrest := ih htables
    rw [texts] at hrest ⊢
    rw [List.flatMap_cons, List.cons_append,
      List.filterMap_cons_some (readLine_tableText hx), List.filterMap_append, hcolumns,
      gather, gather_columns, hrest, List.append_nil, List.map_cons]
    rfl

theorem read_manifest {c : Catalog} (h : ∀ x ∈ c.tables, IsPlain x) :
    read c.manifest = entries c := by
  have hlast : [[]].filterMap readLine = [] := rfl
  rw [read, linesOf_manifest h, List.filterMap_append, hlast, List.append_nil, gather_texts h]
  rfl

/-- The line that exports a table. -/
def exportText (t : TableEntry) : String :=
  let target := t.schema ++ "." ++ t.name
  s!"EXPORT TO {target}.del of del LOBS to . MODIFIED BY LOBSINFILE " ++
    s!"messages {target}.log SELECT * FROM \"{t.schema}\".\"{t.name}\"\n"

theorem exportScript_eq (c : Catalog) (login : Credentials) :
    c.exportScript login =
      s!"connect to {login.database} user {login.user} using '{login.password}'\n" ++
        String.join ((entries c).map exportText) := by
  have hlines : (entries c).map exportText =
      c.tables.map fun x => ExportScript.tableLine x.1 x.2 := by
    rw [entries, List.map_map]
    rfl
  rw [hlines]
  rfl

/-- The table and the names of its columns. -/
def TableEntry.created (t : TableEntry) : TableName × List String :=
  (⟨t.schema, t.name⟩, t.columns.map (·.name))

theorem map_created (c : Catalog) :
    (entries c).map TableEntry.created = c.tables.map Before.created := by
  rw [entries, List.map_map]
  refine List.map_congr_left fun x _ => ?_
  rw [Function.comp_apply, describe, TableEntry.created, List.map_map]
  rfl

/-- The tables, their columns, the original types and what may be null are read back from the
manifest alone, so catalogs that differ in them have different manifests. The export script and the
script that creates the tables go through the same tables and columns in the same order. -/
theorem manifest_decodable (c : Catalog) (h : ∀ x ∈ c.tables, IsPlain x) :
    read c.manifest = entries c ∧
    (∀ d : Catalog, (∀ x ∈ d.tables, IsPlain x) → entries d ≠ entries c →
      d.manifest ≠ c.manifest) ∧
    (∀ login, c.exportScript login =
      s!"connect to {login.database} user {login.user} using '{login.password}'\n" ++
        String.join ((entries c).map exportText)) ∧
    ∀ withTablespaces e script, ((emitBefore withTablespaces c).run e).1 = .ok script →
      script.tablesCreated =
        (entries c).map (fun t => (⟨t.schema, t.name⟩, t.columns.map (·.name))) ∧
      ∃ texts, script.render = unlines texts ++ "\n" ∧
        List.Forall₂ (fun t text => CreatesTable (⟨t.schema, t.name⟩, t.columns.map (·.name)) text)
          (entries c) (texts.filter (begins "CREATE TABLE ")) := by
  refine ⟨read_manifest h, fun d hd hne heq => hne ?_, exportScript_eq c,
    fun withTablespaces e script hscript => ⟨?_, ?_⟩⟩
  · rw [← read_manifest hd, heq, read_manifest h]
  · exact (emitBefore_tablesCreated hscript).trans (map_created c).symm
  · obtain ⟨texts, htexts, hcreated⟩ := emitBefore_tableTexts hscript
    rw [← map_created, List.forall₂_map_left_iff] at hcreated
    exact ⟨texts, htexts, hcreated⟩

/-- A table without a name that has a column without a name, and one whose name begins with a
blank. -/
def oddTable : Table :=
  { name := "",
    columns :=
      [{ name := " A", type := "integer", dumpType := "INTEGER", position := 2, notNull := true },
       { name := "", type := "varchar(3)", dumpType := "VARCHAR(3)", position := 1 }] }

def oddSchema : Schema :=
  { name := "S", tables := (Keyed.empty.insert "" oddTable).insert "T" { name := "T" } }

theorem manifest_decodable_odd :
    let c : Catalog := { schemas := Keyed.empty.insert "S" oddSchema }
    read c.manifest =
        [⟨"S", "", [⟨"", "VARCHAR(3)", false⟩, ⟨" A", "INTEGER", true⟩]⟩, ⟨"S", "T", []⟩] ∧
      ∃ script texts first second, ((emitBefore false c).run (.start c [])).1 = .ok script ∧
        script.render = unlines texts ++ "\n" ∧
        texts.filter (begins "CREATE TABLE ") = [first, second] ∧
        CreatesTable (⟨"S", ""⟩, ["", " A"]) first ∧ CreatesTable (⟨"S", "T"⟩, []) second := by
  intro c
  have htables : c.tables = [(oddSchema, oddTable), (oddSchema, { name := "T" })] := by
    decide +kernel
  have hplain : ∀ x ∈ c.tables, IsPlain x := by
    rw [htables]
    decide +kernel
  have hentries : entries c =
      [⟨"S", "", [⟨"", "VARCHAR(3)", false⟩, ⟨" A", "INTEGER", true⟩]⟩, ⟨"S", "T", []⟩] := by
    rw [entries, htables]
    simp [describe, describeColumn, oddSchema, oddTable, Table.sortedColumns, List.mergeSort]
  obtain ⟨hread, -, -, hscripts⟩ := manifest_decodable c hplain
  refine ⟨hread.trans hentries, ?_⟩
  obtain ⟨scripts, e, hemit⟩ := emitScripts_of_columns false (.start c []) (c := c) (by
    rw [htables]
    decide +kernel)
  have hbefore := (emitScripts_eq_ok hemit).1
  obtain ⟨-, texts, htexts, hcreated⟩ := hscripts false _ _ hbefore
  rw [hentries] at hcreated
  generalize hfiltered : texts.filter (begins "CREATE TABLE ") = created at hcreated
  obtain _ | ⟨hfirst, _ | ⟨hsecond, ⟨⟩⟩⟩ := hcreated
  exact ⟨scripts.before, texts, _, _, hbefore, htexts, hfiltered, hfirst, hsecond⟩

end Manifest

end SchemaTransfer
