import SchemaTransfer.Proofs.Dump.FirstLine
import SchemaTransfer.Proofs.Load.Index

/-!
# Columns of a table

A table has the columns that it was last declared with. Whatever is done to it later keeps their
names and their order.
-/
namespace SchemaTransfer

/-- The names of the columns, in the order of the list. -/
def Table.columnNames (t : Table) : List String := t.columns.map (·.name)

/-- The names of the columns of a table, if there is one. -/
def Catalog.columnNames? (c : Catalog) (schema name : String) : Option (List String) :=
  (c.table? schema name).map Table.columnNames

namespace Load
open Dump Scan

variable {schema name : String}

/-- The names of the columns that a statement declares a table with. -/
def declaredColumns (schema name : String) (t : Taken) : List String :=
  (TableBody.read (TableBody.display schema name) t.statement.number { table := { name } }
    t.statement.rest).value.table.columnNames

theorem isName_of_columnLine {line : List Char} {c : ColumnLine}
    (h : ColumnLine.ofLine? line = some c) : IsName c.name := by
  simp only [ColumnLine.ofLine?, Option.bind_eq_bind, Option.bind_eq_some_iff] at h
  obtain ⟨⟨name, cs⟩, hname, ⟨type, notNull, clause, closes⟩, -, h⟩ := h
  cases h
  exact isName_of_name? hname

/-- A line that is accepted declares at most one column, behind the others. -/
theorem effect_columnNames {b b' : TableBody} {line : List Char}
    (h : TableBody.Effect b line b') : b'.table.columnNames = b.table.columnNames ∨
      ∃ name, IsName name ∧ b'.table.columnNames = b.table.columnNames ++ [name] := by
  cases h with
  | column c type notices part shape sound converted =>
    right
    exact ⟨c.name, isName_of_columnLine shape, List.map_append⟩
  | order identity identity' clause closes part shape value =>
    left
    dsimp only [TableBody.closeIdentity]
    cases hlast : b.table.columns.getLast? with
    | none => rfl
    | some c =>
      have hcolumns := List.dropLast_append_getLast? c hlast
      dsimp only [Table.columnNames]
      conv_rhs => rw [← hcolumns]
      rw [List.map_append, List.map_append]
      rfl
  | closes part shape closing => exact .inl rfl
  | storage s shape part => exact .inl rfl
  | option identity identity' clause part shape value => exact .inl rfl

theorem isName_of_read {shown : String} {number : Nat} {b : TableBody} {lines : List (List Char)}
    (h : ∀ name ∈ b.table.columnNames, IsName name) :
    ∀ name ∈ (TableBody.read shown number b lines).value.table.columnNames, IsName name := by
  induction lines generalizing b with
  | nil =>
    rw [TableBody.read]
    split <;> exact h
  | cons line rest ih =>
    rw [TableBody.read]
    cases hstep : TableBody.step shown number b line with
    | mk b' result =>
      obtain ⟨events, failure⟩ := result
      rcases TableBody.step_cases hstep with ⟨heffect, rfl⟩ | ⟨rfl, f, rfl⟩
      · apply ih
        rcases effect_columnNames heffect with hsame | ⟨column, hcolumn, hmore⟩
        · rwa [hsame]
        · intro name hname
          rw [hmore, List.mem_append, List.mem_singleton] at hname
          rcases hname with hname | rfl
          · exact h name hname
          · exact hcolumn
      · exact h

theorem isName_of_declaredColumns {t : Taken} :
    ∀ column ∈ declaredColumns schema name t, IsName column :=
  isName_of_read fun _ hcolumn => absurd hcolumn List.not_mem_nil

/-- What is done to a table, other than declaring it, keeps of its columns what neither a comment
nor a restart changes. -/
theorem touches_columns {β : Type} {g : Column → β} {rest : List (List Char)} {form : Form}
    {change : Relation → Option Relation} (htouches : Touches rest schema name form change)
    (hform : form ≠ .createTable schema name)
    (hcomment : ∀ c text, g { c with comment := text } = g c)
    (hrestart : ∀ column value, form = .restartIdentity schema name column value →
      ∀ c i, g { c with identity := i } = g c)
    {r r' : Relation} (h : change r = some r') :
    (r'.table.or r.table).map (·.columns.map g) = r.table.map (·.columns.map g) := by
  cases htouches with
  | createTable => exact absurd rfl hform
  | alterTable =>
    obtain ⟨t, t', ht, hchange, rfl⟩ := onTable_eq_some h
    obtain ⟨added, hadded⟩ := exists_added ("ALTER TABLE " ++ TableBody.display schema name) rest
    rw [hadded] at hchange
    obtain ⟨a, -, rfl⟩ := Option.map_eq_some_iff.1 hchange
    rw [ht]
    cases a <;> rfl
  | restartIdentity column value =>
    obtain ⟨t, t', ht, hchange, rfl⟩ := onTable_eq_some h
    obtain ⟨identity, n, -, -, rfl⟩ := restartEdit_eq_some hchange
    rw [ht]
    exact congrArg some (Table.modifyNamed_map column (fun c => hrestart _ _ rfl c _) t.columns)
  | createIndex unique indexSchema index =>
    obtain ⟨t, t', ht, hchange, rfl⟩ := onTable_eq_some h
    obtain ⟨i, -, rfl⟩ := Option.map_eq_some_iff.1 hchange
    rw [ht]
    rfl
  | commentColumn column text =>
    unfold columnCommentEdit at h
    cases ht : r.table with
    | none =>
      rw [ht] at h
      cases h
      rfl
    | some t =>
      rw [ht] at h
      obtain ⟨k, -, rfl⟩ := Option.map_eq_some_iff.1 h
      exact congrArg some (Table.modifyNamed_map column (fun c => hcomment c _) t.columns)
  | commentTable text =>
    unfold commentEdit at h
    cases ht : r.table with
    | none =>
      rw [ht] at h
      cases h
      rfl
    | some t =>
      rw [ht] at h
      cases h
      rfl

variable {p q : Catalog × Context}

theorem advance_columnNames {x : Taken} (h : advance p x.statement = some q) :
    q.1.columnNames? schema name =
      if declares schema name x then some (declaredColumns schema name x)
      else p.1.columnNames? schema name := by
  obtain ⟨form, hform, -, -⟩ := advance_eq_some h
  have hdeclares : declares schema name x = true ↔ form = .createTable schema name := by
    rw [declares, hform]
    simp
  unfold Catalog.columnNames?
  rw [p.1.table?_eq_content, q.1.table?_eq_content]
  rcases advance_relation hform h schema name with ⟨change, r, htouches, hr, hq⟩ | ⟨hsame, hnot⟩
  · rw [hq]
    by_cases hcreate : form = .createTable schema name
    · subst hcreate
      rw [if_pos (hdeclares.2 rfl)]
      cases htouches
      rw [table_read_number _ 0 x.statement.number] at hr
      obtain ⟨b, hb, rfl⟩ := Option.map_eq_some_iff.1 hr
      unfold Reading.result? at hb
      split at hb
      · cases hb
        rfl
      · cases hb
    · rw [if_neg fun hd => hcreate (hdeclares.1 hd)]
      exact touches_columns htouches hcreate (fun _ _ => rfl) (fun _ _ _ _ _ => rfl) hr
  · rw [hsame, if_neg]
    intro hd
    rw [hdeclares.1 hd] at hnot
    exact hnot _ .createTable

/-- The last statement that declares a table decides on its columns. -/
theorem load_columnNames {ts : List Taken} (h : load p ts = some q) :
    q.1.columnNames? schema name =
      ((ts.reverse.find? (declares schema name)).map (declaredColumns schema name)).or
        (p.1.columnNames? schema name) := by
  induction ts generalizing p with
  | nil =>
    cases h
    rfl
  | cons x ts ih =>
    obtain ⟨p', hp', h⟩ := Option.bind_eq_some_iff.1 (load_cons p x ts ▸ h)
    rw [ih h, advance_columnNames hp', List.reverse_cons, List.find?_append]
    cases ts.reverse.find? (declares schema name) with
    | some d => rfl
    | none =>
      rw [List.find?_singleton]
      cases declares schema name x <;> rfl

end Load

end SchemaTransfer
