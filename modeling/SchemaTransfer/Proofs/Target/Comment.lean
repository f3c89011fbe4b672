import SchemaTransfer.Proofs.Catalog.WellKept
import SchemaTransfer.Proofs.Except
import SchemaTransfer.Proofs.Target.Yields

/-!
# Comments in the script to run before loading

The script is emitted if every table can be written, for which only the columns count. It holds
the comment of every table, in lines of its own.
-/
namespace SchemaTransfer

namespace Before
open Emit

variable {withTablespaces : Bool}

theorem run_tables_cons (s : Schema) (t : Table) (rest : List (Schema × Table)) (e : Emission) :
    ∃ e', ((tables withTablespaces ((s, t) :: rest)).run e).1 =
      table withTablespaces s t >>= fun items =>
        ((tables withTablespaces rest).run e').1.map (items ++ ·) := by
  rw [tables]
  cases table withTablespaces s t with
  | error failure => exact ⟨e, rfl⟩
  | ok items => exact ⟨_, rfl⟩

/-- Whether the tables can be written depends on each of them alone. -/
theorem tables_ok_iff {l : List (Schema × Table)} {e : Emission} :
    (∃ script, ((tables withTablespaces l).run e).1 = .ok script) ↔
      ∀ x ∈ l, ∃ items, table withTablespaces x.1 x.2 = .ok items := by
  induction l generalizing e with
  | nil => exact ⟨fun _ x hx => absurd hx List.not_mem_nil, fun _ => ⟨[], rfl⟩⟩
  | cons x rest ih =>
    obtain ⟨s, t⟩ := x
    obtain ⟨e', hrun⟩ := run_tables_cons s t rest e
    rw [hrun, List.forall_mem_cons]
    constructor
    · rintro ⟨script, h⟩
      obtain ⟨items, hitems, h⟩ := bind_eq_ok h
      obtain ⟨more, hmore, -⟩ := map_eq_ok h
      exact ⟨⟨items, hitems⟩, ih.1 ⟨more, hmore⟩⟩
    · rintro ⟨⟨items, hitems⟩, hrest⟩
      obtain ⟨more, hmore⟩ := ih.2 hrest
      rw [hitems]
      exact ⟨items ++ more, congrArg (Except.map (items ++ ·)) hmore⟩

theorem mem_tables {l : List (Schema × Table)} {e : Emission} {script items : Script}
    (h : ((tables withTablespaces l).run e).1 = .ok script) {x : Schema × Table} (hx : x ∈ l)
    (hitems : table withTablespaces x.1 x.2 = .ok items) {item : Item} (hitem : item ∈ items) :
    item ∈ script := by
  induction l generalizing e script with
  | nil => cases hx
  | cons y rest ih =>
    obtain ⟨s, t⟩ := y
    obtain ⟨e', hrun⟩ := run_tables_cons s t rest e
    rw [hrun] at h
    obtain ⟨first, hfirst, h⟩ := bind_eq_ok h
    obtain ⟨more, hmore, rfl⟩ := map_eq_ok h
    rcases List.mem_cons.1 hx with rfl | hx
    · cases hfirst.symm.trans hitems
      exact List.mem_append_left _ hitem
    · exact List.mem_append_right _ (ih hmore hx)

/-- An item of a table. -/
inductive IsItemOf (withTablespaces : Bool) (x : Schema × Table) : Item → Prop
  | createTable (columns : List ColumnItem) :
      IsItemOf withTablespaces x (.createTable ⟨x.1.name, x.2.name⟩ columns
        (if withTablespaces then given x.2.tablespace else none))
  | comment {item : Item} (hitem : IsComment ⟨x.1.name, x.2.name⟩ item) :
      IsItemOf withTablespaces x item
  | blank : IsItemOf withTablespaces x .blank

theorem isItemOf_of_table {x : Schema × Table} {items : Script}
    (h : table withTablespaces x.1 x.2 = .ok items) :
    ∀ item ∈ items, IsItemOf withTablespaces x item := by
  obtain ⟨columnItems, -, rfl⟩ := map_eq_ok h
  rw [List.cons_append, List.forall_mem_cons, List.forall_mem_append, List.forall_mem_singleton]
  exact ⟨.createTable columnItems, fun item hitem => .comment (isComment_of_mem item hitem), .blank⟩

theorem isItemOf_of_tables {l : List (Schema × Table)} {e : Emission} {script : Script}
    (h : ((tables withTablespaces l).run e).1 = .ok script) :
    ∀ item ∈ script, ∃ x ∈ l, IsItemOf withTablespaces x item := by
  induction l generalizing e script with
  | nil =>
    cases h
    exact List.forall_mem_nil _
  | cons x rest ih =>
    obtain ⟨s, t⟩ := x
    obtain ⟨e', hrun⟩ := run_tables_cons s t rest e
    rw [hrun] at h
    obtain ⟨items, hitems, h⟩ := bind_eq_ok h
    obtain ⟨more, hmore, rfl⟩ := map_eq_ok h
    refine List.forall_mem_append.2 ⟨fun item hitem => ?_, fun item hitem => ?_⟩
    · exact ⟨(s, t), List.mem_cons_self, isItemOf_of_table hitems item hitem⟩
    · obtain ⟨y, hy, hitem⟩ := ih hmore item hitem
      exact ⟨y, List.mem_cons_of_mem _ hy, hitem⟩

theorem table_ok_iff (withTablespaces : Bool) (s : Schema) (t : Table) :
    (∃ items, table withTablespaces s t = .ok items) ↔
      ∃ items, columns t.sortedColumns = .ok items := by
  unfold table
  cases columns t.sortedColumns with
  | error failure => exact ⟨fun ⟨_, h⟩ => (by cases h), fun ⟨_, h⟩ => (by cases h)⟩
  | ok items => exact ⟨fun _ => ⟨items, rfl⟩, fun _ => ⟨_, rfl⟩⟩

theorem commentTable_mem_table {s : Schema} {t : Table} {items : Script} {text : String}
    (h : table withTablespaces s t = .ok items) (htext : t.comment = some text) :
    .commentTable ⟨s.name, t.name⟩ text ∈ items := by
  obtain ⟨columnItems, -, rfl⟩ := map_eq_ok h
  refine List.mem_cons_of_mem _ (List.mem_append_left _ (List.mem_append_left _ ?_))
  rw [htext]
  exact List.mem_singleton.2 rfl

end Before

variable {withTablespaces : Bool} {c : Catalog} {e : Emission}

theorem run_emitBefore (withTablespaces : Bool) (c : Catalog) (e : Emission) :
    ∃ e', ((emitBefore withTablespaces c).run e).1 =
      ((Before.tables withTablespaces c.tables).run e').1.map
        (((Before.preamble withTablespaces c).run e).1 ++ ·) := ⟨_, rfl⟩

/-- The script is what stands ahead of the tables, and then the tables. -/
theorem emitBefore_eq_ok {script : Script}
    (h : ((emitBefore withTablespaces c).run e).1 = .ok script) :
    ∃ tables e', ((Before.tables withTablespaces c.tables).run e').1 = .ok tables ∧
      ((Before.preamble withTablespaces c).run e).1 ++ tables = script := by
  obtain ⟨e', hrun⟩ := run_emitBefore withTablespaces c e
  rw [hrun] at h
  obtain ⟨tables, htables, hscript⟩ := map_eq_ok h
  exact ⟨tables, e', htables, hscript⟩

theorem emitBefore_ok_iff : (∃ script, ((emitBefore withTablespaces c).run e).1 = .ok script) ↔
    ∀ x ∈ c.tables, ∃ items, Before.columns x.2.sortedColumns = .ok items := by
  obtain ⟨e', hrun⟩ := run_emitBefore withTablespaces c e
  rw [hrun]
  constructor
  · rintro ⟨script, h⟩ x hx
    obtain ⟨tables, htables, -⟩ := map_eq_ok h
    exact (Before.table_ok_iff withTablespaces x.1 x.2).1
      (Before.tables_ok_iff.1 ⟨tables, htables⟩ x hx)
  · intro h
    obtain ⟨tables, htables⟩ := Before.tables_ok_iff.2 fun x hx =>
      (Before.table_ok_iff withTablespaces x.1 x.2).2 (h x hx)
    exact ⟨_, by rw [htables]; rfl⟩

/-- The script holds the comment of every table. -/
theorem commentTable_mem_emitBefore {script : Script}
    (h : ((emitBefore withTablespaces c).run e).1 = .ok script) {s : Schema} {t : Table}
    (hmem : (s, t) ∈ c.tables) {text : String} (htext : t.comment = some text) :
    .commentTable ⟨s.name, t.name⟩ text ∈ script := by
  obtain ⟨tables, e', htables, rfl⟩ := emitBefore_eq_ok h
  obtain ⟨items, hitems⟩ := Before.tables_ok_iff.1 ⟨tables, htables⟩ (s, t) hmem
  exact List.mem_append_right _ (Before.mem_tables htables hmem hitems
    (Before.commentTable_mem_table hitems htext))

/-- All scripts are emitted if the first one is. -/
theorem emitScripts_of_before {before : Script}
    (h : ((emitBefore withTablespaces c).run e).1 = .ok before) :
    ∃ scripts e', (emitScripts withTablespaces c).run e = (.ok scripts, e') ∧
      scripts.before = before := by
  unfold emitScripts
  rw [Emit.run_bind, h]
  exact ⟨_, _, rfl, rfl⟩

namespace Catalog

theorem mem_tables_of_table? {schema name : String} {t : Table}
    (h : c.table? schema name = some t) :
    ∃ s, c.schemas.get? schema = some s ∧ s.tables.get? name = some t ∧ (s, t) ∈ c.tables := by
  obtain ⟨s, hs, ht⟩ := Option.bind_eq_some_iff.1 h
  refine ⟨s, hs, ht, List.mem_flatMap.2 ⟨s, ?_, List.mem_map.2 ⟨t, ?_, rfl⟩⟩⟩
  · exact List.mem_map_of_mem (Keyed.mem_entries_of_get? hs)
  · exact List.mem_map_of_mem (Keyed.mem_entries_of_get? ht)

/-- The tables behind a replacement are those before it, and the new one. -/
theorem mem_tables_insertTable {schema name : String} {t u : Table}
    (h : c.table? schema name = some t) {x : Schema × Table}
    (hx : x ∈ (c.insertTable schema name u).tables) : x.2 = u ∨ ∃ y ∈ c.tables, y.2 = x.2 := by
  obtain ⟨s, hs, -⟩ := Option.bind_eq_some_iff.1 h
  obtain ⟨s', hs', hx⟩ := List.mem_flatMap.1 hx
  obtain ⟨t', ht', rfl⟩ := List.mem_map.1 hx
  obtain ⟨⟨key, s'⟩, hentry, rfl⟩ := List.mem_map.1 hs'
  rcases Keyed.mem_insertEntry hentry with hnew | hold
  · cases hnew
    rw [Catalog.schema, hs, Option.getD_some] at ht'
    obtain ⟨⟨key, t'⟩, hentry, rfl⟩ := List.mem_map.1 ht'
    rcases Keyed.mem_insertEntry hentry with hnew | hold
    · exact .inl (congrArg Prod.snd hnew)
    · refine .inr ⟨(s, t'), List.mem_flatMap.2 ⟨s, ?_, List.mem_map.2 ⟨t', ?_, rfl⟩⟩, rfl⟩
      · exact List.mem_map_of_mem (Keyed.mem_entries_of_get? hs)
      · exact List.mem_map_of_mem hold
  · exact .inr ⟨(s', t'), List.mem_flatMap.2
      ⟨s', List.mem_map_of_mem hold, List.mem_map.2 ⟨t', ht', rfl⟩⟩, rfl⟩

end Catalog

/-- A table may be replaced by one with the same columns. -/
theorem emitBefore_insertTable_ok {f : Emission} {schema name : String} {t u : Table}
    (ht : c.table? schema name = some t) (hcolumns : u.columns = t.columns) {script : Script}
    (h : ((emitBefore withTablespaces c).run e).1 = .ok script) :
    ∃ script, ((emitBefore withTablespaces (c.insertTable schema name u)).run f).1 =
      .ok script := by
  have hwritten := emitBefore_ok_iff.1 ⟨script, h⟩
  refine emitBefore_ok_iff.2 fun x hx => ?_
  rcases Catalog.mem_tables_insertTable ht hx with hnew | ⟨y, hy, hold⟩
  · obtain ⟨s, -, -, hmem⟩ := Catalog.mem_tables_of_table? ht
    rw [hnew, Table.sortedColumns, hcolumns]
    exact hwritten _ hmem
  · rw [← hold]
    exact hwritten y hy

theorem Script.render_cons {rest : Script} (h : rest ≠ []) (item : Item) :
    Script.render (item :: rest) = item.render ++ "\n" ++ rest.render := by
  rw [Script.render, List.map_cons, unlines, String.intercalate_cons_of_ne_nil (by simpa using h),
    Script.render, unlines, String.append_assoc]

/-- An item stands in lines of its own. -/
theorem Script.render_of_mem {s : Script} {item : Item} (h : item ∈ s) :
    ∃ above below, s.render = above ++ (item.render ++ "\n") ++ below := by
  induction s with
  | nil => cases h
  | cons other rest ih =>
    by_cases hrest : rest = []
    · subst hrest
      rw [List.mem_singleton.1 h, Script.render, List.map_singleton, unlines,
        String.intercalate_singleton]
      exact ⟨"", "", by simp⟩
    · rw [Script.render_cons hrest]
      rcases List.mem_cons.1 h with rfl | h
      · exact ⟨"", Script.render rest, by simp⟩
      · obtain ⟨above, below, hrender⟩ := ih h
        exact ⟨other.render ++ "\n" ++ above, below, by rw [hrender]; simp [String.append_assoc]⟩

end SchemaTransfer
