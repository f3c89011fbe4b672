import SchemaTransfer.Proofs.Load.Columns

/-!
# Types of the columns of a catalog

A column whose type is of no known form is refused when it is read, and nothing that is done to a
table later changes the type that the dump gave a column. So the types of a loaded catalog are all
of a known form.
-/
namespace SchemaTransfer
open Dump ColumnLine

/-- The type of every column is of a known form. -/
def Table.TypesKnown (t : Table) : Prop := ∀ k ∈ t.columns, isType k.dumpType.toList = true

/-- The types of the columns as the dump gave them. -/
def Table.dumpTypes (t : Table) : List String := t.columns.map (·.dumpType)

theorem Table.typesKnown_iff (t : Table) :
    t.TypesKnown ↔ ∀ type ∈ t.dumpTypes, isType type.toList = true := by
  simp [TypesKnown, dumpTypes]

theorem Table.typesKnown_congr {t u : Table} (h : t.dumpTypes = u.dumpTypes) :
    t.TypesKnown ↔ u.TypesKnown := by
  rw [typesKnown_iff, typesKnown_iff, h]

/-- The types of all tables are of a known form. -/
def Catalog.TypesKnown (c : Catalog) : Prop :=
  ∀ schema name t, c.table? schema name = some t → t.TypesKnown

namespace Load

/-- A line declares at most one column, and one of a known type. -/
theorem effect_typesKnown {b b' : TableBody} {line : List Char}
    (h : TableBody.Effect b line b') (hb : b.table.TypesKnown) : b'.table.TypesKnown := by
  cases h with
  | column c type notices part shape sound converted =>
    have htype : isType c.type = true := by
      by_contra hnot
      rw [Bool.not_eq_true] at hnot
      have hfault := sound ""
      simp [TableBody.columnFault?, hnot] at hfault
    intro k hk
    rcases List.mem_append.1 hk with hk | hk
    · exact hb k hk
    · rw [List.mem_singleton.1 hk]
      simpa [TableBody.declared] using htype
  | order identity identity' clause closes part shape value =>
    refine (Table.typesKnown_congr ?_).1 hb
    dsimp only [TableBody.closeIdentity]
    cases hlast : b.table.columns.getLast? with
    | none => rfl
    | some c =>
      have hcolumns := List.dropLast_append_getLast? c hlast
      dsimp only [Table.dumpTypes]
      conv_lhs => rw [← hcolumns]
      simp
  | closes part shape closing => exact hb
  | storage s shape part => exact hb
  | option identity identity' clause part shape value => exact hb

theorem read_typesKnown {shown : String} {number : Nat} {b : TableBody}
    (hb : b.table.TypesKnown) (lines : List (List Char)) :
    (TableBody.read shown number b lines).value.table.TypesKnown := by
  induction lines generalizing b with
  | nil =>
    rw [TableBody.read]
    split <;> exact hb
  | cons line rest ih =>
    rw [TableBody.read]
    cases hstep : TableBody.step shown number b line with
    | mk b' result =>
      obtain ⟨events, failure⟩ := result
      rcases TableBody.step_cases hstep with ⟨heffect, rfl⟩ | ⟨rfl, f, rfl⟩
      · exact ih (effect_typesKnown heffect hb)
      · exact hb

variable {p q : Catalog × Context}

theorem advance_typesKnown {s : Statement} (hp : p.1.TypesKnown) (h : advance p s = some q) :
    q.1.TypesKnown := by
  obtain ⟨form, hform, -, -⟩ := advance_eq_some h
  intro schema name t ht
  rw [q.1.table?_eq_content] at ht
  have hold := hp schema name
  rw [p.1.table?_eq_content] at hold
  rcases advance_relation hform h schema name with ⟨change, r, htouches, hr, hq⟩ | ⟨hsame, -⟩
  · rw [hq] at ht
    by_cases hcreate : form = .createTable schema name
    · subst hcreate
      cases htouches
      obtain ⟨b, hb, rfl⟩ := Option.map_eq_some_iff.1 hr
      have hvalue := value_of_result? hb
      obtain rfl : b.table = t := Option.some.inj ht
      rw [← hvalue]
      exact read_typesKnown (fun k hk => absurd hk List.not_mem_nil) _
    · have hkept := touches_columns (g := Column.dumpType) htouches hcreate (fun _ _ => rfl)
        (fun _ _ _ _ _ => rfl) hr
      have ht : r.table.or (p.1.content (.relation schema name)).table = some t := ht
      rw [ht] at hkept
      obtain ⟨t', ht', htypes⟩ := Option.map_eq_some_iff.1 hkept.symm
      exact (Table.typesKnown_congr htypes).1 (hold t' ht')
  · rw [hsame] at ht
    exact hold t ht

theorem load_typesKnown {ts : List Taken} (h : load ({}, {}) ts = some q) : q.1.TypesKnown :=
  load_invariant (P := fun p => p.1.TypesKnown) (fun hp hq => advance_typesKnown hp hq)
    (fun _ _ _ ht => by cases ht) h

end Load

end SchemaTransfer
