import SchemaTransfer.Proofs.Target.Tables
import SchemaTransfer.Proofs.Target.Text

/-!
# Texts that create tables

A text that creates a table names it and defines its columns one below the other. In the script to
run before loading no other text begins as these do.
-/
namespace SchemaTransfer

/-- The text defines a column of the name. -/
def DefinesColumn (name text : String) : Prop :=
  ∃ rest, text = "  " ++ identifier name ++ " " ++ rest

/-- The text creates the table, with columns of the names in their order. -/
def CreatesTable (x : TableName × List String) (text : String) : Prop :=
  ∃ definitions rest, List.Forall₂ DefinesColumn x.2 definitions ∧
    text = "CREATE TABLE " ++ qualifiedName x.1.schema x.1.name ++ " (\n" ++
      ",\n".intercalate definitions ++ "\n)" ++ rest

theorem ColumnItem.definesColumn (c : ColumnItem) : DefinesColumn c.name c.render := by
  unfold render
  rw [List.append_assoc, List.cons_append, List.cons_append,
    String.intercalate_cons_of_ne_nil (List.cons_ne_nil _ _)]
  simp only [← String.append_assoc]
  exact ⟨_, rfl⟩

namespace Item

theorem createsTable {item : Item} {x : TableName × List String}
    (h : item.tableCreated? = some x) : CreatesTable x item.render := by
  cases item with
  | createTable table columns tablespace =>
    cases h
    refine ⟨columns.map ColumnItem.render, clause "\nTABLESPACE" tablespace ++ ";", ?_, ?_⟩
    · rw [List.forall₂_map_left_iff, List.forall₂_map_right_iff, List.forall₂_same]
      exact fun c _ => c.definesColumn
    · unfold render
      simp only [toString, String.append_assoc, TableName.render]
  | _ => cases h

/-- A fixed line might begin in any way. -/
theorem begins_createTable {item : Item} (h : ∀ text, item ≠ .remark text) :
    begins "CREATE TABLE " item.render = item.tableCreated?.isSome := by
  cases item with
  | remark text => exact absurd rfl (h text)
  | blank => decide
  | createTable => exact begins_render (createTable ..)
  | createIndex unique =>
    cases unique
    · exact begins_render_eq_false "CREATE INDEX " rfl (by decide)
    · exact begins_render_eq_false "CREATE UNIQUE INDEX " rfl (by decide)
  | _ =>
    refine begins_render_eq_false _ rfl ?_
    dsimp only [words]
    decide

end Item

/-- What the items of a script are picked for, if their texts show which of them are picked. -/
theorem Script.forall₂_filter_render {α : Type} {pick : Item → Option α} {picked : String → Bool}
    {Says : α → String → Prop} (h : ∀ item a, pick item = some a → Says a item.render) {s : Script}
    (hpicked : ∀ item ∈ s, picked item.render = (pick item).isSome) :
    List.Forall₂ Says (s.filterMap pick) ((s.map Item.render).filter picked) := by
  induction s with
  | nil => exact .nil
  | cons item s ih =>
    obtain ⟨hitem, hs⟩ := List.forall_mem_cons.1 hpicked
    rw [List.map_cons, List.filter_cons, hitem]
    cases ha : pick item with
    | none =>
      rw [List.filterMap_cons_none ha]
      exact ih hs
    | some a =>
      rw [List.filterMap_cons_some ha]
      exact .cons (h item a ha) (ih hs)

namespace Before

theorem IsAhead.ne_remark {item : Item} (h : IsAhead item) (text : String) :
    item ≠ .remark text := by
  rintro rfl
  cases h with
  | role hrole => cases hrole
  | part hpart => cases hpart

theorem IsItemOf.ne_remark {withTablespaces : Bool} {x : Schema × Table} {item : Item}
    (h : IsItemOf withTablespaces x item) (text : String) : item ≠ .remark text := by
  rintro rfl
  cases h with
  | comment hcomment => cases hcomment

end Before

/-- The texts that create tables go through the tables of the catalog in their order. -/
theorem emitBefore_tableTexts {withTablespaces : Bool} {c : Catalog} {e : Emission}
    {script : Script} (h : ((emitBefore withTablespaces c).run e).1 = .ok script) :
    ∃ texts, script.render = unlines texts ++ "\n" ∧
      List.Forall₂ CreatesTable (c.tables.map Before.created)
        (texts.filter (begins "CREATE TABLE ")) := by
  obtain ⟨tablespaces, parts, hpreamble⟩ := Before.yields_preamble withTablespaces c e
  have hcreated := emitBefore_tablesCreated h
  obtain ⟨tables, e', htables, rfl⟩ := emitBefore_eq_ok h
  refine ⟨_, rfl, ?_⟩
  rw [← hcreated]
  refine Script.forall₂_filter_render (fun _ _ => Item.createsTable) fun item hitem => ?_
  refine Item.begins_createTable ?_
  rcases List.mem_append.1 hitem with hitem | hitem
  · exact (hpreamble.isAhead item hitem).ne_remark
  · obtain ⟨x, -, hx⟩ := Before.isItemOf_of_tables htables item hitem
    exact hx.ne_remark

end SchemaTransfer
