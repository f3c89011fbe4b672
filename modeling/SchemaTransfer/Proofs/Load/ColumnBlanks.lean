import SchemaTransfer.Load.TableBody
import SchemaTransfer.Proofs.Dump.ColumnEnd

/-!
# Columns and the blanks at the end of their lines

A column line does the same with more blanks at its end, unless it ends in `WITH DEFAULT` without a
value: then the first blank too many turns the implicit default into an empty one, which is refused.
-/
namespace SchemaTransfer.Load
open Unicode Dump Dump.ColumnLine

variable {shown : String} {number : Nat} {b : TableBody} {x : Widening} {c w : ColumnLine}

/-- The blanks at the end of an expression do not count. -/
theorem addColumn_generated {always : Bool} {text text' : List Char}
    (hclause : c.clause = .generated always text) (htrim : trimRight text = trimRight text') :
    TableBody.addColumn shown b { c with clause := .generated always text' } =
      TableBody.addColumn shown b c := by
  have hdefault : TableBody.generatedDefault text' = TableBody.generatedDefault text := by
    rw [TableBody.generatedDefault, TableBody.generatedDefault, ← trim_trimRight text', ← htrim,
      trim_trimRight]
  obtain ⟨name, type, notNull, clause, closes⟩ := c
  subst hclause
  unfold TableBody.addColumn TableBody.columnFault? TableBody.clauseEffect TableBody.clauseNotices
  dsimp only
  rw [hdefault]

/-- An empty text is no default value. -/
theorem addColumn_empty : TableBody.addColumn shown b { c with clause := .default [] } =
    (b, [], some (.malformed (if isType c.type then .columnDefault [] c.name shown
      else .columnType c.type c.name shown))) := by
  have hempty : isDefault (trim []) = false := by decide
  unfold TableBody.addColumn TableBody.columnFault?
  dsimp only
  rw [hempty]
  cases isType c.type <;> rfl

/-- The line ends in `WITH DEFAULT` without a value, and then gets blanks that are taken for one. -/
structure EmptiesDefault (x : Widening) (c : ColumnLine) : Prop where
  implicit : c.clause = .implicitDefault
  bare : "WITH DEFAULT".toList <:+ x.front
  wide : x.new.isTight = false

theorem isTight_old (h : x.new.isTight = true) : x.old.isTight = true := by
  have hseparator := x.separator
  have hwider := x.wider
  cases hold : x.old with
  | bare pad =>
    cases hnew : x.new with
    | bare pad' =>
      rw [hold, hnew] at hwider
      rw [hnew] at h
      have hpad' : pad'.chars = [] := List.isEmpty_iff.1 h
      have hpad : pad.chars.length ≤ pad'.chars.length := hwider
      rw [hpad', List.length_nil, Nat.le_zero, List.length_eq_zero_iff] at hpad
      exact List.isEmpty_iff.2 hpad
    | separated pad' apart' closes' tail' =>
      rw [hold, hnew] at hseparator
      cases hseparator
  | separated pad apart closes tail =>
    cases hnew : x.new with
    | bare pad' =>
      rw [hold, hnew] at hseparator
      cases hseparator
    | separated pad' apart' closes' tail' =>
      rw [hold, hnew] at hwider
      rw [hnew] at h
      have hpad' : pad'.chars.length = 1 := beq_iff_eq.1 h
      have hpad : pad.chars.length ≤ pad'.chars.length := hwider
      have hpos := List.length_pos_iff.2 apart
      exact beq_iff_eq.2 (by omega)

/-- What a line with more blanks is read as. -/
theorem ofLine?_after (hc : ofLine? x.before = some c) :
    (EmptiesDefault x c ∧ ofLine? x.after = some { c with clause := .default [] }) ∨
      ¬EmptiesDefault x c ∧ ∃ w, ofLine? x.after = some w ∧
        (w = c ∨ ∃ always text text', c.clause = .generated always text ∧
          trimRight text = trimRight text' ∧ w = { c with clause := .generated always text' }) := by
  obtain ⟨w, hw, hname, htype, hnotNull, hcloses, hclause⟩ := Widening.exists_ofLine? hc
  have hwhole : w = { c with clause := w.clause } := by
    rw [← hname, ← htype, ← hnotNull, ← hcloses]
  rw [hwhole] at hw
  generalize hold : c.clause = clause at hclause
  generalize hnew : w.clause = clause' at hclause hw
  cases hclause with
  | same value =>
    refine .inr ⟨fun h => value (hold ▸ h.implicit) h.bare, _, hw, .inl ?_⟩
    rw [← hold]
  | @generated always text text' trimmed =>
    refine .inr ⟨fun h => ?_, _, hw, .inr ⟨always, text, text', rfl, trimmed, rfl⟩⟩
    cases hold.symm.trans h.implicit
  | bare hword =>
    unfold Widening.bareDefault at hold hw
    cases htight : x.new.isTight with
    | true =>
      rw [htight] at hw
      rw [isTight_old htight] at hold
      refine .inr ⟨fun h => ?_, _, hw, .inl (by rw [← hold])⟩
      cases htight.symm.trans h.wide
    | false =>
      rw [htight] at hw
      cases htight' : x.old.isTight with
      | true =>
        rw [htight'] at hold
        exact .inl ⟨⟨hold, hword, htight⟩, hw⟩
      | false =>
        rw [htight'] at hold
        refine .inr ⟨fun h => ?_, _, hw, .inl (by rw [← hold])⟩
        cases hold.symm.trans h.implicit

theorem step_columns (hpart : b.part = .columns) {line : List Char} (h : ofLine? line = some c) :
    TableBody.step shown number b line = TableBody.addColumn shown b c := by
  rw [TableBody.step, hpart]
  dsimp only
  rw [h]

/-- A column line does the same with more blanks at its end, with one exception: if it ends in
`WITH DEFAULT` without a value and the blanks behind it are more than a separator needs, then an
empty text is taken for the default value and the line fails. -/
theorem step_after_widening (hpart : b.part = .columns) (hc : ofLine? x.before = some c) :
    (¬EmptiesDefault x c →
      TableBody.step shown number b x.after = TableBody.step shown number b x.before) ∧
    (EmptiesDefault x c →
      ofLine? x.after = some { c with clause := .default [] } ∧
        TableBody.step shown number b x.after =
          (b, [], some (.malformed (if isType c.type then .columnDefault [] c.name shown
            else .columnType c.type c.name shown)))) := by
  rw [step_columns hpart hc]
  rcases ofLine?_after hc with ⟨hempties, hw⟩ | ⟨hkeeps, w, hw, hsame⟩
  · exact ⟨fun h => absurd hempties h, fun _ => ⟨hw, (step_columns hpart hw).trans addColumn_empty⟩⟩
  · refine ⟨fun _ => ?_, fun h => absurd h hkeeps⟩
    rw [step_columns hpart hw]
    rcases hsame with rfl | ⟨always, text, text', hclause, htrim, rfl⟩
    · rfl
    · exact addColumn_generated hclause htrim

/-- Some spaces. -/
def spaces (n : Nat) : Blanks where
  chars := List.replicate n ' '
  blank := List.all_eq_true.2 fun c hc => by rw [List.eq_of_mem_replicate hc]; decide
  line := fun h => by cases List.eq_of_mem_replicate h

/-- A column line that ends in a comma, and the same line with more spaces before and behind it. -/
def withSpaces (front : List Char) (hfront : endsVisible front = true) : Widening where
  front := front
  old := .separated (spaces 1) (by decide) false (spaces 0)
  new := .separated (spaces 3) (by decide) false (spaces 2)
  unpadded := .inr hfront
  separator := rfl
  wider := by decide

/-- A column with a default value, and one with the implicit default. -/
def valued : Widening := withSpaces "  \"A\" CHAR(3) WITH DEFAULT 'x'".toList (by decide)

def valueless : Widening := withSpaces "  \"A\" INTEGER WITH DEFAULT".toList (by decide)

/-- A table without columns. -/
def begun : TableBody := { table := { name := "T" } }

theorem step_after_valued :
    begun.part = .columns ∧
      ofLine? valued.before = some ⟨"A", "CHAR(3)".toList, false, .default "'x'".toList, false⟩ ∧
      TableBody.step "S.T" 1 begun valued.after = TableBody.step "S.T" 1 begun valued.before := by
  have hline : ofLine? valued.before =
      some ⟨"A", "CHAR(3)".toList, false, .default "'x'".toList, false⟩ := by decide +kernel
  refine ⟨rfl, hline, (step_after_widening rfl hline).1 fun h => ?_⟩
  cases h.implicit

/-- It is not true that more blanks at the end of a column line leave its column as it was or its
failure a failure. -/
theorem blanks_refuse_default : ¬∀ (shown : String) (number : Nat) (b : TableBody) (x : Widening)
    (c : ColumnLine), b.part = .columns → ofLine? x.before = some c →
      TableBody.step shown number b x.after = TableBody.step shown number b x.before ∨
        ∃ cause cause', (TableBody.step shown number b x.before).2.2 = some (.malformed cause) ∧
          (TableBody.step shown number b x.after).2.2 = some (.malformed cause') := by
  intro h
  have hline : ofLine? valueless.before =
      some ⟨"A", "INTEGER".toList, false, .implicitDefault, false⟩ := by decide +kernel
  have htaken : (TableBody.step "S.T" 1 begun valueless.before).2.2.isSome = false := by
    decide +kernel
  have hrefused : (TableBody.step "S.T" 1 begun valueless.after).2.2.isSome = true := by
    decide +kernel
  rcases h "S.T" 1 begun valueless _ rfl hline with hsame | ⟨cause, -, hfails, -⟩
  · rw [hsame, htaken] at hrefused
    cases hrefused
  · rw [hfails] at htaken
    cases htaken

end SchemaTransfer.Load
