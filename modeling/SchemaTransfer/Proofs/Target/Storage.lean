import SchemaTransfer.Proofs.Names.Emission

/-!
# Emission without tablespaces

With tablespaces left out, nothing of what a catalog holds about storage is looked at: its
tablespaces, and the three tablespaces of each table. Two catalogs that differ in nothing else are
emitted to the same scripts, and the states that are left behind are the same.
-/
namespace SchemaTransfer

namespace Keyed

variable {α β : Type}

/-- The entries under the same keys, each of them changed. -/
def mapValues (f : α → β) (t : Keyed α) : Keyed β where
  entries := t.entries.map fun e => (e.1, f e.2)
  ordered := t.ordered.map _ fun _ _ h => h

theorem values_mapValues (f : α → β) (t : Keyed α) : (t.mapValues f).values = t.values.map f := by
  unfold mapValues values
  rw [List.map_map, List.map_map]
  rfl

end Keyed

/-- The table as if its place in storage had not been given. -/
def Table.withoutStorage (t : Table) : Table :=
  { t with tablespace := none, indexTablespace := none, longTablespace := none }

def Schema.withoutStorage (s : Schema) : Schema :=
  { s with tables := s.tables.mapValues Table.withoutStorage }

/-- The catalog without tablespaces, and without the mention of any by a table. -/
def Catalog.withoutStorage (c : Catalog) : Catalog :=
  { c with schemas := c.schemas.mapValues Schema.withoutStorage, tablespaces := .empty }

variable (c : Catalog)

theorem Catalog.schemas_withoutStorage :
    c.withoutStorage.schemas.values = c.schemas.values.map Schema.withoutStorage :=
  Keyed.values_mapValues _ _

theorem Catalog.tables_withoutStorage :
    c.withoutStorage.tables =
      c.tables.map fun x => (x.1.withoutStorage, x.2.withoutStorage) := by
  unfold Catalog.tables
  rw [schemas_withoutStorage, List.flatMap_map, List.map_flatMap]
  refine List.flatMap_congr fun s _ => ?_
  rw [show s.withoutStorage.tables.values = s.tables.values.map Table.withoutStorage from
    Keyed.values_mapValues _ _, List.map_map, List.map_map]
  rfl

/-- The names of the tables are the same, so an emission starts alike. -/
theorem Emission.start_withoutStorage (verdicts : List Verdict) :
    start c.withoutStorage verdicts = start c verdicts := by
  unfold start
  rw [Catalog.tables_withoutStorage, List.map_map]
  rfl

namespace Emit

variable {α β : Type}

theorem each_map (f : β → Emit Script) (g : α → β) (l : List α) :
    each f (l.map g) = each (fun a => f (g a)) l := by
  induction l with
  | nil => rfl
  | cons a l ih => rw [List.map_cons, each, each, ih]

end Emit

open Emit

theorem Before.preamble_withoutStorage :
    preamble false c.withoutStorage = preamble false c := by
  unfold preamble
  simp only [Catalog.schemas_withoutStorage, each_map]
  rfl

theorem Before.tables_withoutStorage (l : List (Schema × Table)) :
    tables false (l.map fun x => (x.1.withoutStorage, x.2.withoutStorage)) = tables false l := by
  induction l with
  | nil => rfl
  | cons x l ih =>
    rw [List.map_cons, tables, tables, ih]
    rfl

theorem emitBefore_withoutStorage : emitBefore false c.withoutStorage = emitBefore false c := by
  unfold emitBefore
  rw [Before.preamble_withoutStorage, Catalog.tables_withoutStorage, Before.tables_withoutStorage]

theorem emitAfter_withoutStorage : emitAfter false c.withoutStorage = emitAfter false c := by
  unfold emitAfter
  simp only [Catalog.tables_withoutStorage, each_map]
  rfl

theorem emitUnsure_withoutStorage : emitUnsure c.withoutStorage = emitUnsure c := by
  unfold emitUnsure
  simp only [Catalog.tables_withoutStorage, Catalog.schemas_withoutStorage, each_map,
    List.flatMap_map]
  rfl

theorem Part.emit_withoutStorage (p : Part) : p.emit false c.withoutStorage = p.emit false c := by
  cases p with
  | before => exact emitBefore_withoutStorage c
  | after => rw [emit, emit, emitAfter_withoutStorage]
  | unsure => rw [emit, emit, emitUnsure_withoutStorage]

theorem emitParts_withoutStorage (parts : List Part) :
    emitParts false c.withoutStorage parts = emitParts false c parts := by
  induction parts with
  | nil => rfl
  | cons p rest ih => rw [emitParts, emitParts, p.emit_withoutStorage, ih]

theorem emitScripts_withoutStorage :
    emitScripts false c.withoutStorage = emitScripts false c := by
  unfold emitScripts
  rw [emitBefore_withoutStorage, emitAfter_withoutStorage, emitUnsure_withoutStorage]

variable {c} {d : Catalog}

/-- Storage does not interfere: whichever scripts are emitted, and in whatever order, they are the
same, and so are the names, the tally, the notices and the checked texts that they leave. -/
theorem emission_of_withoutStorage_eq (h : c.withoutStorage = d.withoutStorage)
    (verdicts : List Verdict) (parts : List Part) :
    (emitParts false c parts).run (.start c verdicts) =
        (emitParts false d parts).run (.start d verdicts) ∧
      (emitScripts false c).run (.start c verdicts) =
        (emitScripts false d).run (.start d verdicts) := by
  rw [← Emission.start_withoutStorage c, ← Emission.start_withoutStorage d,
    ← emitParts_withoutStorage c, ← emitParts_withoutStorage d, ← emitScripts_withoutStorage c,
    ← emitScripts_withoutStorage d, h]
  exact ⟨rfl, rfl⟩

/-- A table in a tablespace of the catalog, and one for which none was given. -/
theorem emission_of_withoutStorage_eq_inTablespace :
    let catalog (tablespaces : Keyed Tablespace) (tablespace : Option String) : Catalog :=
      { schemas := Keyed.empty.insert "S"
          { name := "S"
            tables := Keyed.empty.insert "T"
              { name := "T", primaryKey := some ⟨["A"], some "T"⟩, tablespace
                indexTablespace := tablespace } }
        tablespaces }
    let c := catalog (Keyed.empty.insert "D" ⟨"D", ["/data"]⟩) (some "D")
    let d := catalog .empty none
    c ≠ d ∧ c.withoutStorage = d.withoutStorage ∧
      ((emitScripts true c).run (.start c [])).2 ≠ ((emitScripts true d).run (.start d [])).2 ∧
      (emitScripts false c).run (.start c []) = (emitScripts false d).run (.start d []) := by
  intro catalog c d
  have herased : c.withoutStorage = d.withoutStorage := by decide +kernel
  refine ⟨by decide +kernel, herased, ?_, (emission_of_withoutStorage_eq herased [] []).2⟩
  decide +kernel

end SchemaTransfer
