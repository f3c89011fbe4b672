import SchemaTransfer.Catalog.Basic
import SchemaTransfer.Proofs.Keyed
import SchemaTransfer.Target.TypeName

/-!
# Well-kept catalogs

What holds of every catalog that was loaded, whatever statements it was loaded from: objects are
kept under their own names, the columns of a table are numbered in their order, no constraint is
empty, and the owners of schemas are roles of the catalog. Putting a well-kept object into a
well-kept catalog leaves it well kept.
-/
namespace SchemaTransfer
open Unicode

structure Column.WellKept (c : Column) : Prop where
  /-- The type is the target's spelling of the type that the dump gives. -/
  converted : ∃ notices, TypeName.convert c.dumpType.toList = .ok (c.type, notices)
  /-- A column has a default value or an identity, but not both. -/
  exclusive : c.default = none ∨ c.identity = none

/-- Positions count from one, in the order of the list. -/
def Numbered (columns : List Column) : Prop :=
  ∀ k (h : k < columns.length), columns[k].position = k + 1

structure Index.WellKept (key : String) (i : Index) : Prop where
  name : i.name = key
  columns : i.columns ≠ []

structure Constraint.WellKept (k : Constraint) : Prop where
  unique : ∀ key, k = .unique key → key.columns ≠ []
  foreign : ∀ key, k = .foreign key → key.columns ≠ [] ∧ key.refColumns ≠ []
  /-- A condition is not empty and has no blanks around it. -/
  check : ∀ c, k = .check c →
    c.condition ≠ "" ∧ trim c.condition.toList = c.condition.toList

structure Table.WellKept (key : String) (t : Table) : Prop where
  name : t.name = key
  positions : Numbered t.columns
  columns : ∀ c ∈ t.columns, c.WellKept
  primaryKey : ∀ k, t.primaryKey = some k → k.columns ≠ []
  constraints : ∀ k ∈ t.constraints, k.WellKept
  indexes : t.indexes.All Index.WellKept

/-- The first function of a name is kept under its name, the others under the name and a number. -/
def Routine.WellKept (key : String) (f : Routine) : Prop :=
  key = f.name ∨ ∃ k : Nat, 2 ≤ k ∧ key = f.name ++ "_" ++ k.repr

structure Schema.WellKept (roles : Keyed Role) (key : String) (s : Schema) : Prop where
  name : s.name = key
  /-- The owner is a role. -/
  authorization : ∀ owner, s.authorization = some owner → roles.contains owner = true
  sequences : s.sequences.All fun key q => q.name = key
  domains : s.domains.All fun key d => d.name = key
  tables : s.tables.All Table.WellKept
  triggers : s.triggers.All fun key t => t.name = key
  routines : s.routines.All Routine.WellKept

structure Catalog.WellKept (c : Catalog) : Prop where
  schemas : c.schemas.All (Schema.WellKept c.roles)
  roles : c.roles.All fun key r => r.name = key
  tablespaces : c.tablespaces.All fun key t => t.name = key

theorem Numbered.nil : Numbered [] := fun _ h => absurd h (Nat.not_lt_zero _)

theorem Numbered.concat {cs : List Column} (h : Numbered cs) {c : Column}
    (hc : c.position = cs.length + 1) : Numbered (cs ++ [c]) := by
  intro k hk
  rw [List.length_append, List.length_singleton] at hk
  rw [List.getElem_append]
  split
  · next hlt => exact h k hlt
  · next hge =>
    obtain rfl : k = cs.length := by omega
    simpa using hc

/-- Columns that keep their positions keep their numbers. -/
theorem Numbered.congr {cs ds : List Column} (h : Numbered cs)
    (hpositions : ds.map (·.position) = cs.map (·.position)) : Numbered ds := by
  intro k hk
  have hlength : ds.length = cs.length := by simpa using congrArg List.length hpositions
  have hk' : k < cs.length := hlength ▸ hk
  have hposition : (ds.map (·.position))[k]? = (cs.map (·.position))[k]? := by rw [hpositions]
  rw [List.getElem?_map, List.getElem?_map, List.getElem?_eq_getElem hk,
    List.getElem?_eq_getElem hk'] at hposition
  exact (Option.some.inj hposition).trans (h k hk')

namespace Table

variable {t : Table} {key : String}

theorem wellKept_empty (name : String) : WellKept name { name } where
  name := rfl
  positions := .nil
  columns c hc := by cases hc
  primaryKey k hk := by cases hk
  constraints k hk := by cases hk
  indexes := .empty

theorem WellKept.addColumn (h : t.WellKept key) {c : Column} (hc : c.WellKept) :
    (t.addColumn c).WellKept key := by
  refine ⟨h.name, h.positions.concat rfl, fun d hd => ?_, h.primaryKey, h.constraints, h.indexes⟩
  rcases List.mem_append.1 hd with hd | hd
  · exact h.columns d hd
  · rw [List.mem_singleton.1 hd]
    exact ⟨hc.converted, hc.exclusive⟩

/-- Changing a column keeps of all of them what the change keeps of each. -/
theorem modifyNamed_map {β : Type} {g : Column → β} (name : String) {f : Column → Column}
    (hf : ∀ c, g (f c) = g c) (cs : List Column) : (modifyNamed name f cs).map g = cs.map g := by
  induction cs with
  | nil => rfl
  | cons c cs ih =>
    rw [modifyNamed]
    split
    · rw [List.map_cons, List.map_cons, hf]
    · rw [List.map_cons, List.map_cons, ih]

/-- Only the first column of a name is changed. -/
theorem mem_modifyNamed {name : String} {f : Column → Column} {cs : List Column} {d : Column}
    (h : d ∈ modifyNamed name f cs) :
    d ∈ cs ∨ ∃ c, cs.find? (·.name = name) = some c ∧ d = f c := by
  induction cs with
  | nil => cases h
  | cons c cs ih =>
    rw [modifyNamed] at h
    split at h
    · next hname =>
      rcases List.mem_cons.1 h with rfl | h
      · exact .inr ⟨c, by simp [hname], rfl⟩
      · exact .inl (List.mem_cons_of_mem _ h)
    · next hname =>
      rcases List.mem_cons.1 h with rfl | h
      · exact .inl List.mem_cons_self
      · rcases ih h with h | ⟨b, hb, rfl⟩
        · exact .inl (List.mem_cons_of_mem _ h)
        · exact .inr ⟨b, by simp [hname, hb], rfl⟩

theorem WellKept.modifyColumn (h : t.WellKept key) {name : String} {f : Column → Column}
    (hf : ∀ c, (f c).position = c.position)
    (hkept : ∀ c, t.column? name = some c → c.WellKept → (f c).WellKept) :
    (t.modifyColumn name f).WellKept key := by
  refine ⟨h.name, h.positions.congr (modifyNamed_map name hf _), fun d hd => ?_,
    h.primaryKey, h.constraints, h.indexes⟩
  rcases mem_modifyNamed hd with hd | ⟨c, hc, rfl⟩
  · exact h.columns d hd
  · exact hkept c hc (h.columns c (List.mem_of_find?_eq_some hc))

theorem WellKept.addConstraint (h : t.WellKept key) {k : Constraint} (hk : k.WellKept) :
    (t.addConstraint k).WellKept key := by
  refine ⟨h.name, h.positions, h.columns, h.primaryKey, fun l hl => ?_, h.indexes⟩
  rcases List.mem_append.1 hl with hl | hl
  · exact h.constraints l hl
  · rw [List.mem_singleton.1 hl]
    exact hk

end Table

namespace Schema

variable {roles : Keyed Role}

theorem wellKept_empty (roles : Keyed Role) (name : String) : WellKept roles name { name } where
  name := rfl
  authorization owner h := by cases h
  sequences := .empty
  domains := .empty
  tables := .empty
  triggers := .empty
  routines := .empty

theorem WellKept.mono {roles' : Keyed Role} {key : String} {s : Schema} (h : s.WellKept roles key)
    (hroles : ∀ name, roles.contains name = true → roles'.contains name = true) :
    s.WellKept roles' key :=
  { h with authorization := fun owner howner => hroles owner (h.authorization owner howner) }

end Schema

namespace Catalog

variable {c : Catalog}

theorem wellKept_empty : WellKept {} := ⟨.empty, .empty, .empty⟩

theorem WellKept.schema (h : c.WellKept) (name : String) :
    (c.schema name).WellKept c.roles name :=
  h.schemas.getD (Schema.wellKept_empty c.roles name)

theorem WellKept.modifySchema (h : c.WellKept) {name : String} {f : Schema → Schema}
    (hf : (f (c.schema name)).WellKept c.roles name) : (c.modifySchema name f).WellKept :=
  ⟨h.schemas.insert hf, h.roles, h.tablespaces⟩

theorem WellKept.mentionSchema (h : c.WellKept) (name : String) : (c.mentionSchema name).WellKept :=
  h.modifySchema (h.schema name)

theorem WellKept.insertRole (h : c.WellKept) {name : String} {r : Role} (hr : r.name = name) :
    WellKept { c with roles := c.roles.insert name r } := by
  refine ⟨h.schemas.mono fun key s hs => hs.mono fun owner howner => ?_, h.roles.insert hr,
    h.tablespaces⟩
  by_cases hname : name = owner
  · rw [hname, Keyed.contains, Keyed.get?_insert_self]
    rfl
  · rw [Keyed.contains, Keyed.get?_insert_of_ne _ _ hname]
    exact howner

theorem contains_mentionRole (c : Catalog) (name : String) :
    (c.mentionRole name).roles.contains name = true := by
  rw [mentionRole, Keyed.contains, Keyed.get?_insert_self]
  rfl

/-- It does not matter whether a role or a schema comes first. -/
theorem modifySchema_mentionRole (c : Catalog) (name owner : String) (f : Schema → Schema) :
    (c.modifySchema name f).mentionRole owner = (c.mentionRole owner).modifySchema name f := rfl

theorem WellKept.mentionRole (h : c.WellKept) (name : String) : (c.mentionRole name).WellKept :=
  h.insertRole (h.roles.getD rfl)

theorem WellKept.table (h : c.WellKept) {schema name : String} {t : Table}
    (ht : c.table? schema name = some t) : t.WellKept name := by
  obtain ⟨s, hs, ht⟩ := Option.bind_eq_some_iff.1 ht
  exact (h.schemas.of_get? hs).tables.of_get? ht

theorem WellKept.insertTable (h : c.WellKept) {schema name : String} {t : Table}
    (ht : t.WellKept name) : (c.insertTable schema name t).WellKept := by
  have hs := h.schema schema
  exact h.modifySchema { hs with tables := hs.tables.insert ht }

end Catalog

end SchemaTransfer
