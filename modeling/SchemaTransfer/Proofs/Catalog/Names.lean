import SchemaTransfer.Catalog.Basic
import SchemaTransfer.Proofs.Catalog.WellKept

/-!
# The names in a catalog

What holds of all names in a catalog: those of its schemas, roles, tablespaces and views, of what
the schemas hold, and of the columns, constraints and indexes of their tables. The names that an
object only refers to are not among them. An object whose names have a property can be put into a
catalog whose names have it.
-/
namespace SchemaTransfer

variable {P Q : String → Prop}

def Constraint.name? : Constraint → Option String
  | unique key => key.name
  | foreign key => key.name
  | check c => c.name

/-- The names of the constraints that have one, that of the primary key among them. -/
def Table.constraintNames (t : Table) : List String :=
  (t.primaryKey.bind (·.name)).toList ++ t.constraints.filterMap Constraint.name?

structure Table.AllNames (P : String → Prop) (t : Table) : Prop where
  name : P t.name
  columns : ∀ k ∈ t.columns, P k.name
  constraints : ∀ n ∈ t.constraintNames, P n
  indexes : t.indexes.All fun _ i => P i.name

structure Schema.AllNames (P : String → Prop) (s : Schema) : Prop where
  name : P s.name
  sequences : s.sequences.All fun _ q => P q.name
  domains : s.domains.All fun _ d => P d.name
  tables : s.tables.All fun _ t => t.AllNames P
  triggers : s.triggers.All fun _ t => P t.name
  routines : s.routines.All fun _ f => P f.name

structure Catalog.AllNames (P : String → Prop) (c : Catalog) : Prop where
  schemas : c.schemas.All fun _ s => s.AllNames P
  roles : c.roles.All fun _ r => P r.name
  tablespaces : c.tablespaces.All fun _ t => P t.name
  views : ∀ v ∈ c.views, P v.name

namespace Table

variable {t : Table}

theorem AllNames.mono (h : t.AllNames P) (hpq : ∀ n, P n → Q n) : t.AllNames Q :=
  ⟨hpq _ h.name, fun k hk => hpq _ (h.columns k hk), fun n hn => hpq n (h.constraints n hn),
    h.indexes.mono fun _ _ => hpq _⟩

theorem allNames_empty {name : String} (h : P name) : AllNames P { name } :=
  ⟨h, List.forall_mem_nil _, List.forall_mem_nil _, .empty⟩

/-- Columns may be replaced by others of the same names. -/
theorem AllNames.ofColumns (h : t.AllNames P) {columns : List Column}
    (hcolumns : columns.map (·.name) = t.columns.map (·.name)) :
    AllNames P { t with columns } := by
  refine ⟨h.name, fun k hk => ?_, h.constraints, h.indexes⟩
  have hname : k.name ∈ t.columns.map (·.name) := hcolumns ▸ List.mem_map_of_mem hk
  obtain ⟨l, hl, hsame⟩ := List.mem_map.1 hname
  exact hsame ▸ h.columns l hl

theorem AllNames.modifyColumn (h : t.AllNames P) (name : String) {f : Column → Column}
    (hf : ∀ k, (f k).name = k.name) : (t.modifyColumn name f).AllNames P :=
  h.ofColumns (modifyNamed_map name hf _)

theorem AllNames.addColumn (h : t.AllNames P) {k : Column} (hk : P k.name) :
    (t.addColumn k).AllNames P := by
  refine ⟨h.name, fun l hl => ?_, h.constraints, h.indexes⟩
  rcases List.mem_append.1 hl with hl | hl
  · exact h.columns l hl
  · rw [List.mem_singleton.1 hl]
    exact hk

theorem AllNames.setPrimaryKey (h : t.AllNames P) {k : Key} (hk : ∀ n, k.name = some n → P n) :
    AllNames P { t with primaryKey := some k } := by
  refine ⟨h.name, h.columns, fun n hn => ?_, h.indexes⟩
  rcases List.mem_append.1 hn with hn | hn
  · exact hk n (Option.mem_toList.1 hn)
  · exact h.constraints n (List.mem_append_right _ hn)

theorem AllNames.addConstraint (h : t.AllNames P) {k : Constraint}
    (hk : ∀ n, k.name? = some n → P n) : (t.addConstraint k).AllNames P := by
  refine ⟨h.name, h.columns, fun n hn => ?_, h.indexes⟩
  rw [constraintNames, Table.addConstraint, List.filterMap_append, ← List.append_assoc,
    List.mem_append] at hn
  rcases hn with hn | hn
  · exact h.constraints n hn
  · obtain ⟨l, hl, hname⟩ := List.mem_filterMap.1 hn
    rw [List.mem_singleton.1 hl] at hname
    exact hk n hname

end Table

theorem Schema.AllNames.mono {s : Schema} (h : s.AllNames P) (hpq : ∀ n, P n → Q n) :
    s.AllNames Q :=
  ⟨hpq _ h.name, h.sequences.mono fun _ _ => hpq _, h.domains.mono fun _ _ => hpq _,
    h.tables.mono fun _ _ ht => ht.mono hpq, h.triggers.mono fun _ _ => hpq _,
    h.routines.mono fun _ _ => hpq _⟩

theorem Schema.allNames_empty {name : String} (h : P name) : AllNames P { name } :=
  ⟨h, .empty, .empty, .empty, .empty, .empty⟩

namespace Catalog

variable {c : Catalog}

theorem allNames_empty (P : String → Prop) : AllNames P {} :=
  ⟨.empty, .empty, .empty, List.forall_mem_nil _⟩

theorem AllNames.mono (h : c.AllNames P) (hpq : ∀ n, P n → Q n) : c.AllNames Q :=
  ⟨h.schemas.mono fun _ _ hs => hs.mono hpq, h.roles.mono fun _ _ => hpq _,
    h.tablespaces.mono fun _ _ => hpq _, fun v hv => hpq _ (h.views v hv)⟩

theorem AllNames.schema (h : c.AllNames P) {name : String} (hname : P name) :
    (c.schema name).AllNames P :=
  h.schemas.getD (Schema.allNames_empty hname)

theorem AllNames.modifySchema (h : c.AllNames P) {name : String} {f : Schema → Schema}
    (hf : (f (c.schema name)).AllNames P) : (c.modifySchema name f).AllNames P :=
  ⟨h.schemas.insert hf, h.roles, h.tablespaces, h.views⟩

theorem AllNames.mentionSchema (h : c.AllNames P) {name : String} (hname : P name) :
    (c.mentionSchema name).AllNames P :=
  h.modifySchema (h.schema hname)

theorem AllNames.insertRole (h : c.AllNames P) {r : Role} (hr : P r.name) (key : String) :
    AllNames P { c with roles := c.roles.insert key r } :=
  ⟨h.schemas, h.roles.insert hr, h.tablespaces, h.views⟩

theorem AllNames.mentionRole (h : c.AllNames P) {name : String} (hname : P name) :
    (c.mentionRole name).AllNames P :=
  h.insertRole (h.roles.getD hname) name

theorem AllNames.table (h : c.AllNames P) {schema name : String} {t : Table}
    (ht : c.table? schema name = some t) : t.AllNames P := by
  obtain ⟨s, hs, ht⟩ := Option.bind_eq_some_iff.1 ht
  exact (h.schemas.of_get? hs).tables.of_get? ht

theorem AllNames.insertTable (h : c.AllNames P) {schema : String} (hschema : P schema) {t : Table}
    (ht : t.AllNames P) (key : String) : (c.insertTable schema key t).AllNames P := by
  have hs := h.schema hschema
  exact h.modifySchema { hs with tables := hs.tables.insert ht }

end Catalog

end SchemaTransfer
