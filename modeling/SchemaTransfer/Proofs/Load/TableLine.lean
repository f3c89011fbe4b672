import SchemaTransfer.Load.TableBody

/-!
# What a line of a table does

A line that does not fail has one of five effects on what was read before. One that fails has none.
-/
namespace SchemaTransfer.Load.TableBody
open Dump

/-- The column that a line declares, with its type in the target's spelling. -/
def declared (c : ColumnLine) (type : String) : Column :=
  { name := c.name, type, dumpType := .ofList c.type, position := 0, notNull := c.notNull,
    default := (clauseEffect c).1 }

/-- The effects of lines that are accepted. -/
inductive Effect (b : TableBody) (line : List Char) : TableBody → Prop
  | column (c : ColumnLine) (type : String) (notices : List Notice) (part : b.part = .columns)
      (shape : ColumnLine.ofLine? line = some c) (sound : ∀ shown, columnFault? shown c = none)
      (converted : TypeName.convert c.type = .ok (type, notices)) :
      Effect b line ⟨b.table.addColumn (declared c type), (clauseEffect c).2⟩
  | closes (part : b.part = .columns) (shape : ColumnLine.ofLine? line = none)
      (closing : closesColumns line = true) : Effect b line { b with part := .storage }
  | storage (s : Storage) (shape : Storage.ofLine? line = some s)
      (part : b.part = .storage ∨ b.part = .columns ∧ ColumnLine.ofLine? line = none ∧
        closesColumns line = false) :
      Effect b line { b with table := store b.table s }
  | option (identity identity' : Identity) (clause : IdentityClause)
      (part : b.part = .identity identity) (shape : IdentityClause.ofLine? line = some clause)
      (value : setOption identity clause = .ok (identity', none)) :
      Effect b line { b with part := .identity identity' }
  | order (identity identity' : Identity) (clause : IdentityClause) (closes : Bool)
      (part : b.part = .identity identity) (shape : IdentityClause.ofLine? line = some clause)
      (value : setOption identity clause = .ok (identity', some closes)) :
      Effect b line ⟨closeIdentity b.table identity', if closes then .storage else .columns⟩

variable {shown : String} {number : Nat} {b b' : TableBody} {line : List Char}
  {events : List Event} {failure : Option Failure}

/-- Whether a column has a fault does not depend on how its table is called. -/
theorem columnFault?_eq_none (shown' : String) {c : ColumnLine}
    (h : columnFault? shown c = none) : columnFault? shown' c = none := by
  unfold columnFault? at h ⊢
  split at h
  · cases h
  · next htype =>
    rw [if_neg htype]
    cases hclause : c.clause with
    | default text =>
      rw [hclause] at h
      dsimp only at h ⊢
      split at h
      · next hdefault => rw [if_pos hdefault]
      · cases h
    | nothing => rfl
    | implicitDefault => rfl
    | identity always => rfl
    | generated always expression => rfl

theorem storageLine_cases (h : storageLine shown number b line = (b', events, failure)) :
    (∃ s, Storage.ofLine? line = some s ∧ b' = { b with table := store b.table s } ∧
      failure = none) ∨
    Storage.ofLine? line = none ∧ b' = b ∧
      failure = some (.malformed (.tableLine line shown number)) := by
  unfold storageLine at h
  cases hline : Storage.ofLine? line with
  | none =>
    rw [hline] at h
    cases h
    exact .inr ⟨rfl, rfl, rfl⟩
  | some s =>
    rw [hline] at h
    cases h
    exact .inl ⟨s, rfl, rfl, rfl⟩

theorem addColumn_cases {c : ColumnLine} (h : addColumn shown b c = (b', events, failure)) :
    (∃ type notices, columnFault? shown c = none ∧ TypeName.convert c.type = .ok (type, notices) ∧
      b' = ⟨b.table.addColumn (declared c type), (clauseEffect c).2⟩ ∧ failure = none) ∨
    b' = b ∧ ((∃ cause, columnFault? shown c = some cause ∧ failure = some (.malformed cause)) ∨
      columnFault? shown c = none ∧ ∃ f, failure = some f) := by
  unfold addColumn at h
  cases hfault : columnFault? shown c with
  | some cause =>
    rw [hfault] at h
    cases h
    exact .inr ⟨rfl, .inl ⟨cause, rfl, rfl⟩⟩
  | none =>
    rw [hfault] at h
    cases htype : TypeName.convert c.type with
    | error f =>
      rw [htype] at h
      cases h
      exact .inr ⟨rfl, .inr ⟨rfl, f, rfl⟩⟩
    | ok converted =>
      rw [htype] at h
      cases h
      exact .inl ⟨converted.1, converted.2, rfl, rfl, rfl, rfl⟩

theorem identityLine_cases {identity : Identity} (hpart : b.part = .identity identity)
    (h : identityLine shown b identity line = (b', events, failure)) :
    (Effect b line b' ∧ failure = none) ∨ b' = b ∧ ∃ f, failure = some f := by
  unfold identityLine at h
  cases hshape : IdentityClause.ofLine? line with
  | none =>
    rw [hshape] at h
    cases h
    exact .inr ⟨rfl, _, rfl⟩
  | some clause =>
    rw [hshape] at h
    dsimp only at h
    cases hvalue : setOption identity clause with
    | error f =>
      rw [hvalue] at h
      cases h
      exact .inr ⟨rfl, f, rfl⟩
    | ok set =>
      obtain ⟨identity', closes⟩ := set
      rw [hvalue] at h
      cases closes with
      | none =>
        cases h
        exact .inl ⟨.option identity identity' clause hpart hshape hvalue, rfl⟩
      | some closes =>
        cases h
        exact .inl ⟨.order identity identity' clause closes hpart hshape hvalue, rfl⟩

theorem step_cases (h : step shown number b line = (b', events, failure)) :
    (Effect b line b' ∧ failure = none) ∨ b' = b ∧ ∃ f, failure = some f := by
  unfold step at h
  cases hpart : b.part with
  | identity identity =>
    rw [hpart] at h
    exact identityLine_cases hpart h
  | storage =>
    rw [hpart] at h
    rcases storageLine_cases h with ⟨s, hline, rfl, hnone⟩ | ⟨-, hsame, hfails⟩
    · exact .inl ⟨.storage s hline (.inl hpart), hnone⟩
    · exact .inr ⟨hsame, _, hfails⟩
  | columns =>
    rw [hpart] at h
    dsimp only at h
    cases hcolumn : ColumnLine.ofLine? line with
    | some c =>
      rw [hcolumn] at h
      rcases addColumn_cases h with ⟨type, notices, hsound, htype, rfl, hnone⟩ | ⟨hsame, hfails⟩
      · exact .inl ⟨.column c type notices hpart hcolumn
          (fun shown' => columnFault?_eq_none shown' hsound) htype, hnone⟩
      · refine .inr ⟨hsame, ?_⟩
        rcases hfails with ⟨cause, -, hfails⟩ | ⟨-, hfails⟩
        · exact ⟨_, hfails⟩
        · exact hfails
    | none =>
      rw [hcolumn] at h
      dsimp only at h
      split at h
      · next hcloses =>
        cases h
        exact .inl ⟨.closes hpart hcolumn hcloses, rfl⟩
      · next hcloses =>
        rw [Bool.not_eq_true] at hcloses
        rcases storageLine_cases h with ⟨s, hline, rfl, hnone⟩ | ⟨-, hsame, hfails⟩
        · exact .inl ⟨.storage s hline (.inr ⟨hpart, hcolumn, hcloses⟩), hnone⟩
        · exact .inr ⟨hsame, _, hfails⟩

end SchemaTransfer.Load.TableBody
