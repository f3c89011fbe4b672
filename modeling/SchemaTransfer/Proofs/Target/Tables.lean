import Mathlib.Data.List.Nodup
import SchemaTransfer.Proofs.Load.Columns
import SchemaTransfer.Proofs.Target.Comment
import SchemaTransfer.Proofs.Target.Preamble

/-!
# Tables in the script to run before loading

The script creates each table of the catalog once, under its own name and with its columns in their
order.
-/
namespace SchemaTransfer

/-- The table that an item creates, with the names of its columns. -/
def Item.tableCreated? : Item → Option (TableName × List String)
  | createTable table columns _ => some (table, columns.map (·.name))
  | _ => none

/-- The tables that a script creates, each with the names of its columns. -/
def Script.tablesCreated (s : Script) : List (TableName × List String) :=
  s.filterMap Item.tableCreated?

namespace Before

variable {withTablespaces : Bool}

theorem columns_names {cs : List Column} {items : List ColumnItem} (h : columns cs = .ok items) :
    items.map (·.name) = cs.map (·.name) := by
  induction cs generalizing items with
  | nil =>
    cases h
    rfl
  | cons c cs ih =>
    rw [columns] at h
    obtain ⟨item, hitem, h⟩ := bind_eq_ok h
    obtain ⟨more, hmore, h⟩ := bind_eq_ok h
    obtain ⟨default, -, rfl⟩ := map_eq_ok hitem
    cases h
    rw [List.map_cons, List.map_cons, ih hmore]

theorem columns_ok {cs : List Column} (h : ∀ c ∈ cs, ∃ item, column c = .ok item) :
    ∃ items, columns cs = .ok items := by
  induction cs with
  | nil => exact ⟨[], rfl⟩
  | cons c cs ih =>
    obtain ⟨⟨item, hitem⟩, hrest⟩ := List.forall_mem_cons.1 h
    obtain ⟨items, hitems⟩ := ih hrest
    exact ⟨item :: items, by rw [columns, hitem, hitems]; rfl⟩

/-- What a table is created under, and its columns. -/
def created (x : Schema × Table) : TableName × List String :=
  (⟨x.1.name, x.2.name⟩, x.2.sortedColumns.map (·.name))

theorem comments_tablesCreated (name : TableName) (t : Table) :
    Script.tablesCreated (comments name t) = [] := by
  refine List.filterMap_eq_nil_iff.2 fun item h => ?_
  cases isComment_of_mem item h <;> rfl

theorem table_tablesCreated {s : Schema} {t : Table} {items : Script}
    (h : table withTablespaces s t = .ok items) : items.tablesCreated = [created (s, t)] := by
  obtain ⟨columnItems, hcolumns, rfl⟩ := map_eq_ok h
  have hcomments := comments_tablesCreated ⟨s.name, t.name⟩ t
  unfold Script.tablesCreated at hcomments ⊢
  rw [List.cons_append, List.filterMap_cons, Item.tableCreated?, List.filterMap_append, hcomments,
    columns_names hcolumns]
  rfl

theorem tables_tablesCreated {l : List (Schema × Table)} {e : Emission} {script : Script}
    (h : ((tables withTablespaces l).run e).1 = .ok script) :
    script.tablesCreated = l.map created := by
  induction l generalizing e script with
  | nil =>
    cases h
    rfl
  | cons x rest ih =>
    obtain ⟨s, t⟩ := x
    obtain ⟨e', hrun⟩ := run_tables_cons s t rest e
    rw [hrun] at h
    obtain ⟨items, hitems, h⟩ := bind_eq_ok h
    obtain ⟨more, hmore, rfl⟩ := map_eq_ok h
    have hfirst := table_tablesCreated hitems
    have hrest := ih hmore
    unfold Script.tablesCreated at hfirst hrest ⊢
    rw [List.filterMap_append, hfirst, hrest]
    rfl

theorem IsAhead.tableCreated? {item : Item} (h : IsAhead item) : item.tableCreated? = none := by
  cases h with
  | role hrole => cases hrole <;> rfl
  | part hpart => cases hpart <;> rfl
  | _ => rfl

theorem IsPreamble.tablesCreated {c : Catalog} {items tablespaces parts : Script}
    (h : IsPreamble c items tablespaces parts) : items.tablesCreated = [] :=
  List.filterMap_eq_nil_iff.2 fun item hitem => (h.isAhead item hitem).tableCreated?

end Before

theorem emitBefore_tablesCreated {withTablespaces : Bool} {c : Catalog} {e : Emission}
    {script : Script} (h : ((emitBefore withTablespaces c).run e).1 = .ok script) :
    script.tablesCreated = c.tables.map Before.created := by
  obtain ⟨tablespaces, parts, hpreamble⟩ := Before.yields_preamble withTablespaces c e
  obtain ⟨tables, e', htables, rfl⟩ := emitBefore_eq_ok h
  have hfirst := hpreamble.tablesCreated
  have hrest := Before.tables_tablesCreated htables
  unfold Script.tablesCreated at hfirst hrest ⊢
  rw [List.filterMap_append, hfirst, hrest, List.nil_append]

/-- The scripts are emitted if every column can be written. -/
theorem emitScripts_of_columns (withTablespaces : Bool) {c : Catalog} (e : Emission)
    (h : ∀ x ∈ c.tables, ∀ k ∈ x.2.columns, k.defaultValue?.toOption.isSome = true) :
    ∃ scripts e', (emitScripts withTablespaces c).run e = (.ok scripts, e') := by
  have hbefore : ∃ script, ((emitBefore withTablespaces c).run e).1 = .ok script := by
    refine emitBefore_ok_iff.2 fun x hx => Before.columns_ok fun k hk => ?_
    have hdefault := h x hx k ((List.mergeSort_perm _ _).mem_iff.1 hk)
    unfold Before.column
    cases hvalue : k.defaultValue? with
    | error failure =>
      rw [hvalue] at hdefault
      cases hdefault
    | ok default => exact ⟨_, rfl⟩
  obtain ⟨before, hbefore⟩ := hbefore
  obtain ⟨scripts, e', hscripts, -⟩ := emitScripts_of_before hbefore
  exact ⟨scripts, e', hscripts⟩

/-- Columns that are numbered in their order stay in it. -/
theorem Numbered.sortedColumns {t : Table} (h : Numbered t.columns) :
    t.sortedColumns = t.columns := by
  apply List.mergeSort_of_pairwise
  rw [List.pairwise_iff_getElem]
  intro j k hj hk hjk
  rw [h j hj, h k hk]
  simp
  omega

namespace Catalog.WellKept

variable {c : Catalog} {schema name : String}

theorem mem_tables_iff (h : c.WellKept) {x : Schema × Table} :
    x ∈ c.tables ↔ c.schemas.get? x.1.name = some x.1 ∧ x.1.tables.get? x.2.name = some x.2 := by
  constructor
  · intro hx
    obtain ⟨s, hs, hx⟩ := List.mem_flatMap.1 hx
    obtain ⟨t, ht, rfl⟩ := List.mem_map.1 hx
    obtain ⟨entry, hentry, rfl⟩ := List.mem_map.1 hs
    obtain ⟨entry', hentry', rfl⟩ := List.mem_map.1 ht
    have hkept := h.schemas entry hentry
    rw [hkept.name, (hkept.tables entry' hentry').name]
    exact ⟨Keyed.get?_of_mem hentry, Keyed.get?_of_mem hentry'⟩
  · rintro ⟨hs, ht⟩
    refine List.mem_flatMap.2 ⟨x.1, ?_, List.mem_map.2 ⟨x.2, ?_, rfl⟩⟩
    · exact List.mem_map_of_mem (Keyed.mem_entries_of_get? hs)
    · exact List.mem_map_of_mem (Keyed.mem_entries_of_get? ht)

/-- Each table of the catalog is there once, with the columns that it has. -/
theorem mem_created_iff (h : c.WellKept) {columns : List String} :
    (⟨schema, name⟩, columns) ∈ c.tables.map Before.created ↔
      c.columnNames? schema name = some columns := by
  unfold columnNames?
  constructor
  · intro hmem
    obtain ⟨x, hx, hcreated⟩ := List.mem_map.1 hmem
    cases hcreated
    obtain ⟨hs, ht⟩ := h.mem_tables_iff.1 hx
    have htable : c.table? x.1.name x.2.name = some x.2 := Option.bind_eq_some_iff.2 ⟨x.1, hs, ht⟩
    rw [htable, (h.table htable).positions.sortedColumns]
    rfl
  · intro hcolumns
    obtain ⟨t, ht, rfl⟩ := Option.map_eq_some_iff.1 hcolumns
    obtain ⟨s, hs, ht', hmem⟩ := Catalog.mem_tables_of_table? ht
    refine List.mem_map.2 ⟨(s, t), hmem, ?_⟩
    unfold Before.created
    rw [(h.table ht).positions.sortedColumns, (h.schemas.of_get? hs).name, (h.table ht).name]
    rfl

theorem created_nodup (h : c.WellKept) : ((c.tables.map Before.created).map (·.1)).Nodup := by
  have hschema (s : Schema) {key : String} (hs : s.WellKept c.roles key) :
      s.tables.values.map (fun t => TableName.mk s.name t.name) =
        s.tables.keys.map (TableName.mk key) := by
    unfold Keyed.values Keyed.keys
    rw [List.map_map, List.map_map]
    refine List.map_congr_left fun entry hentry => ?_
    dsimp only [Function.comp_apply]
    rw [hs.name, (hs.tables entry hentry).name]
  have hnames : (c.tables.map Before.created).map (·.1) =
      c.schemas.entries.flatMap fun e => e.2.tables.keys.map (TableName.mk e.1) := by
    unfold Catalog.tables
    rw [List.map_map, List.map_flatMap, Keyed.values, List.flatMap_map]
    refine List.flatMap_congr fun entry hentry => ?_
    rw [← hschema entry.2 (h.schemas entry hentry), List.map_map]
    rfl
  rw [hnames, List.nodup_flatMap]
  constructor
  · intro entry _
    refine entry.2.tables.keys_nodup.map fun a b hab => ?_
    cases hab
    rfl
  · refine c.schemas.ordered.imp fun {a b} hlt => ?_
    intro table ha hb
    obtain ⟨k, -, rfl⟩ := List.mem_map.1 ha
    obtain ⟨l, -, hl⟩ := List.mem_map.1 hb
    have hkey : b.1 = a.1 := congrArg TableName.schema hl
    exact String.lt_irrefl b.1 (hkey ▸ hlt)

end Catalog.WellKept

end SchemaTransfer
