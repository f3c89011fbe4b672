import SchemaTransfer.Proofs.Target.Schemas

/-!
# Tablespaces in the scripts

Where tablespaces are wanted, those of the catalog that have a container are created at the very
beginning, and nowhere else. Behind them a statement names the tablespaces that its table has, of
which the catalog need not know.
-/
namespace SchemaTransfer

namespace Item

/-- The tablespace that a statement asks for. -/
def tablespace? : Item → Option String
  | createTable _ _ tablespace => tablespace
  | addPrimaryKey _ _ _ tablespace => tablespace
  | addUnique _ _ _ tablespace => tablespace
  | createIndex _ _ _ _ tablespace => tablespace
  | _ => none

def isTablespace : Item → Bool
  | createTablespace .. => true
  | _ => false

/-- The table that a statement stores, or that it stores a key or an index of. -/
def storedTable? : Item → Option TableName
  | createTable table _ _ => some table
  | addPrimaryKey table _ _ _ => some table
  | addUnique table _ _ _ => some table
  | createIndex _ _ table _ _ => some table
  | _ => none

/-- What the table has for such a statement: keys and indexes have a tablespace of their own. -/
def placeIn (t : Table) : Item → Option String
  | createTable _ _ _ => given t.tablespace
  | _ => given t.indexTablespace

/-- The item creates no tablespace. If it asks for one, that is the one that its table has. -/
structure Stored (c : Catalog) (item : Item) : Prop where
  notTablespace : item.isTablespace = false
  given : ∀ name, item.tablespace? = some name →
    ∃ x ∈ c.tables, item.storedTable? = some ⟨x.1.name, x.2.name⟩ ∧ item.placeIn x.2 = some name

/-- The clause stands at the end of the statement. -/
theorem render_of_tablespace? {item : Item} {name : String} (h : item.tablespace? = some name) :
    ∃ front, item.render = front ++ "TABLESPACE " ++ identifier name ++ ";" := by
  have hclause {words : String} (front : String) (hwords : words ++ " " = front ++ "TABLESPACE ") :
      clause words (some name) = front ++ "TABLESPACE " ++ identifier name :=
    congrArg (· ++ identifier name) hwords
  cases item with
  | createTable =>
    cases h
    unfold render
    dsimp only
    rw [hclause "\n" (by decide)]
    simp only [← String.append_assoc]
    exact ⟨_, rfl⟩
  | addPrimaryKey | addUnique =>
    cases h
    unfold render addKey
    dsimp only
    rw [hclause " USING INDEX " (by decide)]
    simp only [← String.append_assoc]
    exact ⟨_, rfl⟩
  | createIndex =>
    cases h
    unfold render
    dsimp only
    rw [hclause " " (by decide)]
    simp only [← String.append_assoc]
    exact ⟨_, rfl⟩
  | _ => cases h

variable {c : Catalog}

theorem stored_of_none {item : Item} (h : item.isTablespace = false)
    (hnone : item.tablespace? = none) : item.Stored c where
  notTablespace := h
  given name hname := by
    rw [hnone] at hname
    cases hname

theorem Stored.ne_createTablespace {item : Item} (h : item.Stored c) (name location : String) :
    item ≠ .createTablespace name location := by
  rintro rfl
  cases h.notTablespace

end Item

open Emit Item

variable {c : Catalog}

namespace Before

/-- The tablespaces that have a container, each with the first one. -/
def tablespaceItems (c : Catalog) : Script :=
  c.tablespaces.entries.flatMap fun e =>
    (e.2.paths.head?.map (Item.createTablespace e.1)).toList

theorem yields_tablespaces (c : Catalog) :
    Yields (· = tablespaceItems c ++ [.blank]) (tablespaces true c) := by
  refine (yields_each_eq fun entry _ => ?_).bind fun items hitems =>
    yields_pure (congrArg (· ++ [blank]) hitems)
  unfold tablespace
  cases entry.2.paths with
  | nil => exact yields_bind fun _ => yields_pure rfl
  | cons path rest => exact yields_bind fun _ => yields_pure rfl

theorem createTablespace_mem_iff {name location : String} :
    .createTablespace name location ∈ tablespaceItems c ↔
      ∃ t, c.tablespaces.get? name = some t ∧ t.paths.head? = some location := by
  unfold tablespaceItems
  constructor
  · intro hmem
    obtain ⟨entry, hentry, hitem⟩ := List.mem_flatMap.1 hmem
    obtain ⟨path, hpath, hitem⟩ := Option.map_eq_some_iff.1 (Option.mem_toList.1 hitem)
    cases hitem
    exact ⟨entry.2, Keyed.get?_of_mem hentry, hpath⟩
  · rintro ⟨t, ht, hlocation⟩
    refine List.mem_flatMap.2 ⟨(name, t), Keyed.mem_entries_of_get? ht, ?_⟩
    rw [hlocation]
    exact List.mem_singleton.2 rfl

theorem IsItemOf.stored {x : Schema × Table} (hx : x ∈ c.tables) {item : Item}
    (hitem : IsItemOf true x item) : item.Stored c := by
  cases hitem with
  | createTable columns => exact ⟨rfl, fun name hname => ⟨x, hx, rfl, hname⟩⟩
  | comment hcomment => cases hcomment <;> exact stored_of_none rfl rfl
  | blank => exact stored_of_none rfl rfl

end Before

theorem Before.IsPreamble.stored {items tablespaces parts : Script}
    (h : Before.IsPreamble c items tablespaces parts) :
    ∀ item ∈ c.roles.entries.flatMap Before.roleItems ++ [blank] ++
      c.schemas.values.map Before.schemaItem ++ parts, item.Stored c := by
  simp only [List.forall_mem_append, List.forall_mem_singleton, List.forall_mem_flatMap,
    List.forall_mem_map]
  refine ⟨⟨⟨fun entry _ item hitem => ?_, stored_of_none rfl rfl⟩,
    fun s _ => stored_of_none rfl rfl⟩, fun item hitem => ?_⟩
  · cases Before.isRole_of_mem item hitem <;> exact stored_of_none rfl rfl
  · rcases h.parts item hitem with rfl | ⟨s, -, hpart⟩
    · exact stored_of_none rfl rfl
    · cases hpart <;> exact stored_of_none rfl rfl

theorem After.IsItem.stored {item : Item} (h : IsItem true c item) : item.Stored c := by
  cases h with
  | clientEncoding => exact stored_of_none rfl rfl
  | blank => exact stored_of_none rfl rfl
  | key hx hkey => cases hkey <;> exact ⟨rfl, fun name hname => ⟨_, hx, rfl, hname⟩⟩
  | index hx hindex =>
    cases hindex
    exact ⟨rfl, fun name hname => ⟨_, hx, rfl, hname⟩⟩
  | foreignKey hx name k => exact stored_of_none rfl rfl
  | identity hx hidentity => cases hidentity <;> exact stored_of_none rfl rfl

/-- The first two scripts in a row begin with the tablespaces, and behind them none is created. -/
theorem emitScripts_stored {e e' : Emission} {scripts : Scripts}
    (h : (emitScripts true c).run e = (.ok scripts, e')) :
    ∃ rest, scripts.before ++ scripts.after =
        [clientEncoding, blank] ++ Before.tablespaceItems c ++ rest ∧
      ∀ item ∈ rest, item.Stored c := by
  obtain ⟨hbefore, f, hafter⟩ := emitScripts_eq_ok h
  obtain ⟨tablespaces, parts, hpreamble, htablespaces⟩ :=
    Before.yields_preamble_of (Before.yields_tablespaces c) e
  obtain ⟨keys, indexes, identities, hscript⟩ := yields_emitAfter true c f
  obtain ⟨tables, e'', htables, hbefore⟩ := emitBefore_eq_ok hbefore
  rw [hafter] at hscript
  refine ⟨[blank] ++ (c.roles.entries.flatMap Before.roleItems ++ [blank] ++
    c.schemas.values.map Before.schemaItem ++ parts) ++ tables ++ scripts.after, ?_, ?_⟩
  · rw [← hbefore, hpreamble.layout, htablespaces]
    simp only [List.append_assoc]
  · rw [List.forall_mem_append, List.forall_mem_append, List.forall_mem_append,
      List.forall_mem_singleton]
    refine ⟨⟨⟨stored_of_none rfl rfl, hpreamble.stored⟩, fun item hitem => ?_⟩,
      fun item hitem => (hscript.isItem item hitem).stored⟩
    obtain ⟨x, hx, hitem⟩ := Before.isItemOf_of_tables htables item hitem
    exact hitem.stored hx

/-- Ahead of a statement that asks for a tablespace all tablespaces with a container are created,
and no others. What it asks for is the one that its table has. -/
theorem emitScripts_tablespaces {e e' : Emission} {scripts : Scripts}
    (h : (emitScripts true c).run e = (.ok scripts, e')) {pre post : Script} {item : Item}
    (hsplit : scripts.before ++ scripts.after = pre ++ item :: post) {name : String}
    (hitem : item.tablespace? = some name) :
    (∀ other location, .createTablespace other location ∈ pre ↔
      ∃ t, c.tablespaces.get? other = some t ∧ t.paths.head? = some location) ∧
    ∃ x ∈ c.tables, item.storedTable? = some ⟨x.1.name, x.2.name⟩ ∧
      item.placeIn x.2 = some name := by
  obtain ⟨rest, hlayout, hrest⟩ := emitScripts_stored h
  have hfront : ∀ other ∈ [clientEncoding, blank] ++ Before.tablespaceItems c,
      other.tablespace? = none := by
    simp only [Before.tablespaceItems, List.forall_mem_append, List.forall_mem_cons,
      List.forall_mem_flatMap]
    refine ⟨⟨rfl, rfl, List.forall_mem_nil _⟩, fun entry _ other hother => ?_⟩
    obtain ⟨path, -, rfl⟩ := Option.map_eq_some_iff.1 (Option.mem_toList.1 hother)
    rfl
  have hnot : item ∉ [clientEncoding, blank] ++ Before.tablespaceItems c := fun hmem => by
    rw [hfront item hmem] at hitem
    cases hitem
  have hprefix := prefix_of_not_mem (hlayout.symm.trans hsplit) hnot
  constructor
  · intro other location
    rw [← Before.createTablespace_mem_iff]
    constructor
    · intro hmem
      have hall : .createTablespace other location ∈
          [clientEncoding, blank] ++ Before.tablespaceItems c ++ rest := by
        rw [← hlayout, hsplit]
        exact List.mem_append_left _ hmem
      rcases List.mem_append.1 hall with hmem | hmem
      · simpa using hmem
      · exact absurd rfl ((hrest _ hmem).ne_createTablespace other location)
    · exact fun hmem => hprefix.mem (List.mem_append_right _ hmem)
  · have hall : item ∈ [clientEncoding, blank] ++ Before.tablespaceItems c ++ rest := by
      rw [← hlayout, hsplit]
      exact List.mem_append_right _ List.mem_cons_self
    exact (hrest item ((List.mem_append.1 hall).resolve_left hnot)).given name hitem

end SchemaTransfer
