import SchemaTransfer.Proofs.Target.After

/-!
# Indexes in the script to run after loading

The statements that create indexes on a table come from the indexes of its record, one group of
statements for each of them, whatever names are given out.
-/
namespace SchemaTransfer

/-- The table on which an item creates an index. -/
def Item.indexedTable? : Item → Option TableName
  | createIndex _ _ table _ _ => some table
  | _ => none

/-- The items that create indexes on a table. -/
def Script.indexesOn (table : TableName) (s : Script) : Script :=
  s.filter fun item => item.indexedTable? = some table

/-- The statements for an index under given names: one with its columns, after which the included
columns come, unless that would weaken a unique index. Then a second index holds them. -/
def Index.items (table : TableName) (tablespace : Option String) (i : Index)
    (name covering : String) : Script :=
  let all := i.columns ++ i.includeColumns.map fun c => { name := c }
  .createIndex i.unique name table (if i.unique then i.columns else all) tablespace ::
    if i.unique && !i.includeColumns.isEmpty then
      [.createIndex false covering table all tablespace]
    else []

/-- The statements create the index. -/
def Index.CreatedBy (table : TableName) (i : Index) (items : Script) : Prop :=
  ∃ tablespace name covering, items = i.items table tablespace name covering

namespace Script

/-- No item creates an index. -/
def Indexless (s : Script) : Prop := ∀ item ∈ s, item.indexedTable? = none

theorem Indexless.append {s t : Script} (hs : s.Indexless) (ht : t.Indexless) :
    Indexless (s ++ t) :=
  fun item h => (List.mem_append.1 h).elim (hs item) (ht item)

theorem Indexless.indexesOn {s : Script} (h : s.Indexless) (table : TableName) :
    s.indexesOn table = [] := by
  refine List.filter_eq_nil_iff.2 fun item hitem => ?_
  simp [h item hitem]

theorem indexesOn_append (table : TableName) (s t : Script) :
    Script.indexesOn table (s ++ t) = s.indexesOn table ++ t.indexesOn table :=
  List.filter_append s t

end Script

theorem Index.indexedTable?_items {table : TableName} {i : Index} {items : Script}
    (h : i.CreatedBy table items) : ∀ item ∈ items, item.indexedTable? = some table := by
  obtain ⟨tablespace, name, covering, rfl⟩ := h
  unfold Index.items
  intro item hitem
  rcases List.mem_cons.1 hitem with rfl | hitem
  · rfl
  · split at hitem
    · rw [List.mem_singleton.1 hitem]
      rfl
    · cases hitem

namespace After
open Emit Script

/-- What goes over the members of a list creates no index unless one of them does. -/
theorem indexless_each {α : Type} {f : α → Emit Script} (h : ∀ a, Yields Indexless (f a))
    (l : List α) : Yields Indexless (each f l) := by
  induction l with
  | nil => exact yields_pure fun item hitem => by cases hitem
  | cons a l ih =>
    exact (h a).bind fun items hitems => ih.bind fun more hmore =>
      yields_pure (hitems.append hmore)

theorem indexless_keys (withTablespaces : Bool) (e : Schema × Table) :
    Yields Indexless (keys withTablespaces e) := by
  intro f item hitem
  cases every_isKeyOf e f item hitem <;> rfl

theorem indexless_foreignKeys (e : Schema × Table) : Yields Indexless (foreignKeys e) := by
  intro f item hitem
  rw [yields_foreignKeys e f] at hitem
  obtain ⟨k, -, rfl⟩ := List.mem_map.1 hitem
  rfl

theorem indexless_identities (e : Schema × Table) : Yields Indexless (identities e) := by
  intro f item hitem
  cases every_isIdentityOf e f item hitem <;> rfl

theorem index_createdBy (withTablespaces : Bool) (s : Schema) (t : Table) (i : Index) :
    Yields (i.CreatedBy ⟨s.name, t.name⟩) (index withTablespaces s t i) := by
  unfold index
  refine yields_bind fun name => yields_bind fun _ => ?_
  by_cases hnone : i.includeColumns.isEmpty
  · simp only [hnone, if_true]
    refine yields_pure ⟨indexTablespace withTablespaces t, name, name, ?_⟩
    rw [List.isEmpty_iff] at hnone
    simp [Index.items, hnone]
  · by_cases hunique : i.unique
    · simp only [hnone, hunique, if_true, Bool.false_eq_true, if_false]
      refine yields_bind fun covering => yields_bind fun _ => yields_bind fun _ => ?_
      refine yields_pure ⟨indexTablespace withTablespaces t, name, covering, ?_⟩
      simp [Index.items, hnone, hunique]
    · simp only [hnone, hunique, Bool.false_eq_true, if_false]
      refine yields_bind fun _ => yields_pure ⟨indexTablespace withTablespaces t, name, name, ?_⟩
      simp [Index.items, hunique]

/-- All groups of statements for the indexes of a table are about this table. -/
theorem indexesOn_groups {table : TableName} {indexes : List Index} {groups : List Script}
    (h : List.Forall₂ (Index.CreatedBy table) indexes groups) (other : TableName) :
    Script.indexesOn other groups.flatten = if table = other then groups.flatten else [] := by
  have htable : ∀ item ∈ groups.flatten, item.indexedTable? = some table := by
    induction h with
    | nil => exact fun item hitem => by cases hitem
    | cons hitems hrest ih =>
      intro item hitem
      rw [List.flatten_cons] at hitem
      rcases List.mem_append.1 hitem with hitem | hitem
      · exact Index.indexedTable?_items hitems item hitem
      · exact ih item hitem
  split
  · next hsame =>
    subst hsame
    exact List.filter_eq_self.2 fun item hitem => by simp [htable item hitem]
  · next hother =>
    exact List.filter_eq_nil_iff.2 fun item hitem => by simp [htable item hitem, hother]

/-- The indexes of all tables of a name in a list. -/
def indexesNamed (table : TableName) (entries : List (Schema × Table)) : List Index :=
  (entries.filter fun e => (⟨e.1.name, e.2.name⟩ : TableName) = table).flatMap (·.2.indexes.values)

theorem each_indexes (withTablespaces : Bool) (table : TableName)
    (entries : List (Schema × Table)) :
    Yields (fun items => ∃ groups,
      List.Forall₂ (Index.CreatedBy table) (indexesNamed table entries) groups ∧
        items.indexesOn table = groups.flatten)
      (each (indexes withTablespaces) entries) := by
  induction entries with
  | nil => exact yields_pure ⟨[], .nil, rfl⟩
  | cons e entries ih =>
    refine (yields_each fun i _ => index_createdBy withTablespaces e.1 e.2 i).bind
      fun items hitems => ih.bind fun more hmore => yields_pure ?_
    obtain ⟨groups, hgroups, rfl⟩ := hitems
    obtain ⟨others, hothers, hmore⟩ := hmore
    rw [indexesOn_append, indexesOn_groups hgroups, hmore]
    unfold indexesNamed at hothers ⊢
    by_cases hname : (⟨e.1.name, e.2.name⟩ : TableName) = table
    · rw [if_pos hname, List.filter_cons_of_pos (by simpa using hname), List.flatMap_cons]
      rw [hname] at hgroups
      exact ⟨groups ++ others, List.rel_append hgroups hothers, by simp⟩
    · rw [if_neg hname, List.filter_cons_of_neg (by simpa using hname), List.nil_append]
      exact ⟨others, hothers, rfl⟩

end After

/-- The script creates on a table exactly the indexes of its record. -/
theorem emitAfter_indexes (withTablespaces : Bool) (c : Catalog) (table : TableName) :
    Emit.Yields (fun items => ∃ groups,
      List.Forall₂ (Index.CreatedBy table) (After.indexesNamed table c.tables) groups ∧
        items.indexesOn table = groups.flatten)
      (emitAfter withTablespaces c) := by
  refine (After.indexless_each (After.indexless_keys withTablespaces) c.tables).bind
    fun keys hkeys => ?_
  refine (After.each_indexes withTablespaces table c.tables).bind fun indexes hindexes => ?_
  refine (After.indexless_each After.indexless_foreignKeys c.tables).bind
    fun foreignKeys hforeignKeys => ?_
  refine (After.indexless_each After.indexless_identities c.tables).bind
    fun identities hidentities => Emit.yields_pure ?_
  obtain ⟨groups, hgroups, hindexes⟩ := hindexes
  refine ⟨groups, hgroups, ?_⟩
  have hstart : Script.Indexless [.clientEncoding, .blank] := by
    simp [Script.Indexless, Item.indexedTable?]
  simp only [Script.indexesOn_append, hindexes, hstart.indexesOn, hkeys.indexesOn,
    hforeignKeys.indexesOn, hidentities.indexesOn, List.nil_append, List.append_nil]

end SchemaTransfer
