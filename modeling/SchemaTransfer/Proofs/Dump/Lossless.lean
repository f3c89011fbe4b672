import Mathlib.Data.List.Forall2
import Mathlib.Data.List.Infix
import SchemaTransfer.Proofs.Dump.Statement

/-!
# Every line belongs to one statement

The lines of a dump that are not blank without their comments fall into statements, one behind the
other. A statement keeps its lines as they are, but for the semicolon that ends it. Outside the
body of a function it ends with the first line that ends in a semicolon; inside a body with the
first such line that ends in `END` or follows a line ending in it. Only the end of the dump can cut
a statement short.

What a reader remembers of a statement is related to the lines of that statement: this holds of its
first line and is kept by each line that goes on with it.
-/
namespace SchemaTransfer.Dump
open Unicode

/-- The lines that are read: without their comments, and without those that are blank then. -/
def content (lines : List (List Char)) : List Line :=
  (numbered 0 (lines.map stripComment)).filter fun line => !allBlank line.text

theorem contentFrom_eq_filter (n : Nat) (lines : List (List Char)) :
    contentFrom n lines =
      (numbered n (lines.map stripComment)).filter fun line => !allBlank line.text := by
  induction lines generalizing n with
  | nil => rfl
  | cons raw rest ih =>
    rw [contentFrom, List.map_cons, numbered, List.filter_cons, ih]
    cases allBlank (stripComment raw) <;> simp

theorem mem_contentFrom {n : Nat} {lines : List (List Char)} {line : Line}
    (h : line ∈ contentFrom n lines) : ∃ raw ∈ lines, line.text = stripComment raw := by
  rw [contentFrom_eq_filter] at h
  have htext : line.text ∈ (numbered n (lines.map stripComment)).map (·.text) :=
    List.mem_map_of_mem (List.mem_of_mem_filter h)
  rw [numbered_text] at htext
  obtain ⟨raw, hraw, heq⟩ := List.mem_map.1 htext
  exact ⟨raw, hraw, heq.symm⟩

/-- The lines of a statement as they were read, and as it keeps them. -/
inductive Keeps : List (List Char) → List (List Char) → Prop
  /-- The statement has no terminator. -/
  | all {lines : List (List Char)} :
      (∀ last ∈ lines.getLast?, isTerminated last = false) → Keeps lines lines
  /-- The last line ends before its terminator. -/
  | upToTerminator {lines : List (List Char)} {last blanks : List Char} :
      lines = [] ∨ allBlank last = false → allBlank blanks = true →
        Keeps (lines ++ [last ++ ';' :: blanks]) (lines ++ [last])
  /-- The last line, which is not the first, holds nothing but its terminator. -/
  | withoutLast {lines : List (List Char)} {last blanks : List Char} :
      lines ≠ [] → allBlank last = true → allBlank blanks = true →
        Keeps (lines ++ [last ++ ';' :: blanks]) lines

/-- A terminator is a semicolon with the blanks behind it. -/
theorem exists_terminator {line : List Char} (h : isTerminated line = true) :
    ∃ blanks, allBlank blanks = true ∧ line = withoutTerminator line ++ ';' :: blanks := by
  obtain ⟨blanks, hblanks, hline⟩ := exists_trimRight_append line
  have hlast : (trimRight line).getLast? = some ';' := by simpa [isTerminated] using h
  have hvisible : (trimRight line).dropLast ++ [';'] = trimRight line :=
    List.dropLast_append_getLast? ';' hlast
  refine ⟨blanks, hblanks, ?_⟩
  rw [withoutTerminator, if_pos h]
  calc line = ((trimRight line).dropLast ++ [';']) ++ blanks := by rw [hvisible, ← hline]
    _ = (trimRight line).dropLast ++ ';' :: blanks := by simp

theorem keeps_ofLines (first : Line) (rest : List Line)
    (h : ∀ line ∈ first :: rest, allBlank line.text = false) :
    Keeps ((first :: rest).map (·.text)) (Statement.ofLines first rest).lines := by
  rcases List.eq_nil_or_concat rest with rfl | ⟨init, last, rfl⟩
  · rw [Statement.ofLines, Statement.lines, List.map_singleton]
    cases hend : isTerminated first.text with
    | false =>
      rw [withoutTerminator, hend]
      exact .all (by simpa using hend)
    | true =>
      obtain ⟨blanks, hblanks, hline⟩ := exists_terminator hend
      have hkeeps : Keeps ([] ++ [withoutTerminator first.text ++ ';' :: blanks])
          ([] ++ [withoutTerminator first.text]) := .upToTerminator (.inl rfl) hblanks
      rwa [← hline] at hkeeps
  · rw [List.concat_eq_append] at h ⊢
    have hlines : (Statement.ofLines first (init ++ [last])).lines =
        (first :: init).map (·.text) ++ closing [last.text] := by
      cases init with
      | nil => rfl
      | cons next init =>
        show first.text :: closing ((next :: (init ++ [last])).map (·.text)) = _
        rw [← List.cons_append, List.map_append, List.map_singleton, closing_concat]
        rfl
    rw [hlines, ← List.cons_append, List.map_append, List.map_singleton]
    cases hend : isTerminated last.text with
    | false =>
      have hfilled : allBlank last.text = false := h last (by simp)
      rw [closing, withoutTerminator, hend]
      simp only [hfilled, Bool.false_eq_true, if_false]
      apply Keeps.all
      intro l hl
      rw [List.getLast?_concat] at hl
      rwa [← Option.some.inj hl]
    | true =>
      obtain ⟨blanks, hblanks, hline⟩ := exists_terminator hend
      rw [closing]
      cases hblank : allBlank (withoutTerminator last.text) with
      | false =>
        have hkeeps : Keeps ((first :: init).map (·.text) ++
            [withoutTerminator last.text ++ ';' :: blanks])
            ((first :: init).map (·.text) ++ [withoutTerminator last.text]) :=
          .upToTerminator (.inr hblank) hblanks
        rw [← hline] at hkeeps
        simpa [hblank] using hkeeps
      | true =>
        have hkeeps : Keeps ((first :: init).map (·.text) ++
            [withoutTerminator last.text ++ ';' :: blanks]) ((first :: init).map (·.text)) :=
          .withoutLast (List.cons_ne_nil _ _) hblank hblanks
        rw [← hline] at hkeeps
        simpa [hblank] using hkeeps

/-- The lines of a statement outside the body of a function: none but the last ends in a
semicolon. -/
structure PlainLines (lines : List Line) : Prop where
  goesOn : ∀ line ∈ lines.dropLast, isTerminated line.text = false
  /-- Lines of a function do not begin its body. -/
  bodiless : ∀ first ∈ lines.head?, declaresFunction first.text = true →
    ∀ line ∈ lines, beginsAtomic line.text = false

/-- Lines of a body: none of them but the last ends in a semicolon if it ends in `END` or follows a
line ending in it. -/
def Unfinished (lines : List Line) : Prop :=
  ∀ before line after, lines = before ++ line :: after → after ≠ [] →
    isTerminated line.text = true → ∀ l ∈ before ++ [line], endsBlock l.text = false

/-- The lines of a function up to the line that begins its body, and the lines of the body from
there on. -/
structure BodyLines (before : List Line) (start : Line) (rest : List Line) : Prop where
  function : ∀ first ∈ (before ++ [start]).head?, declaresFunction first.text = true
  begins : beginsAtomic start.text = true
  earlier : ∀ line ∈ before, beginsAtomic line.text = false
  goesOn : ∀ line ∈ before, isTerminated line.text = false
  unfinished : Unfinished (start :: rest)

theorem unfinished_singleton (line : Line) : Unfinished [line] := by
  intro before l after hsplit hafter
  have hlength := congrArg List.length hsplit
  have hpos := List.length_pos_iff.2 hafter
  simp only [List.length_append, List.length_cons, List.length_nil] at hlength
  omega

theorem Unfinished.concat {lines : List Line} (h : Unfinished lines)
    (hlast : ∀ last ∈ lines.getLast?, isTerminated last.text = true →
      ∀ l ∈ lines, endsBlock l.text = false) (line : Line) : Unfinished (lines ++ [line]) := by
  intro before l after hsplit hafter hend
  obtain ⟨init, last, rfl⟩ := (List.eq_nil_or_concat after).resolve_left hafter
  have hlines : lines = before ++ l :: init := by
    rw [List.concat_eq_append, ← List.cons_append, ← List.append_assoc] at hsplit
    exact (List.append_inj' hsplit rfl).1
  by_cases hinit : init = []
  · subst hinit
    subst hlines
    exact hlast l List.getLast?_concat hend
  · exact h before l init hlines hinit hend

theorem PlainLines.concat {lines : List Line} (h : PlainLines lines) (hne : lines ≠ [])
    (hlast : ∀ last ∈ lines.getLast?, isTerminated last.text = false) {line : Line}
    (hline : ∀ first ∈ lines.head?, declaresFunction first.text = true →
      beginsAtomic line.text = false) : PlainLines (lines ++ [line]) := by
  constructor
  · rw [List.dropLast_concat]
    obtain ⟨init, last, rfl⟩ := (List.eq_nil_or_concat lines).resolve_left hne
    intro l hl
    rw [List.concat_eq_append] at hl
    rcases List.mem_append.1 hl with hl | hl
    · apply h.goesOn
      rwa [List.concat_eq_append, List.dropLast_concat]
    · rw [List.mem_singleton.1 hl]
      apply hlast
      rw [List.concat_eq_append]
      exact List.getLast?_concat
  · rw [List.head?_append_of_ne_nil _ hne]
    intro first hfirst hdeclares l hl
    rcases List.mem_append.1 hl with hl | hl
    · exact h.bodiless first hfirst hdeclares l hl
    · rw [List.mem_singleton.1 hl]
      exact hline first hfirst hdeclares

theorem PlainLines.terminated_eq_false {lines : List Line} (h : PlainLines lines)
    (hlast : ∀ last ∈ lines.getLast?, isTerminated last.text = false) :
    ∀ line ∈ lines, isTerminated line.text = false := by
  intro line hline
  obtain ⟨init, last, rfl⟩ := (List.eq_nil_or_concat lines).resolve_left (List.ne_nil_of_mem hline)
  rw [List.concat_eq_append] at h hlast hline
  rcases List.mem_append.1 hline with hline | hline
  · apply h.goesOn
    rwa [List.dropLast_concat]
  · rw [List.mem_singleton.1 hline]
    exact hlast last List.getLast?_concat

theorem Progress.next_of_plain {p : Progress} {line : List Char} (hmode : p.mode = .plain)
    (hseen : p.seenEnd = false) (hbody : (p.inFunction && beginsAtomic line) = false) :
    p.next line = p := by
  obtain ⟨inFunction, mode, seenEnd⟩ := p
  subst hmode
  subst hseen
  simp [Progress.next, hbody]

namespace Begun

def lines (b : Begun) : List Line := b.first :: b.rest

/-- The last line read so far ends the statement. -/
def Closed (b : Begun) : Prop := ∀ last ∈ b.lines.getLast?, b.progress.isClosed last.text = true

/-- What is remembered agrees with the lines that were read. -/
structure Sound (b : Begun) : Prop where
  function : b.progress.inFunction = declaresFunction b.first.text
  plain : b.progress.mode = .plain → b.bodyStart = none ∧ b.progress.seenEnd = false ∧
    PlainLines b.lines
  atomic : b.progress.mode = .atomicBody → ∃ before start rest,
    b.lines = before ++ start :: rest ∧ b.bodyStart = some start.number ∧
      b.progress.seenEnd = (start :: rest).any (endsBlock ·.text) ∧ BodyLines before start rest

theorem lines_add (b : Begun) (line : Line) : (b.add line).lines = b.lines ++ [line] := rfl

theorem sound_ofFirst (line : Line) : (ofFirst line).Sound := by
  unfold ofFirst Progress.next bodyStartAt
  cases hbody : declaresFunction line.text && beginsAtomic line.text with
  | false =>
    refine ⟨rfl, fun _ => ?_, fun hmode => ?_⟩
    · refine ⟨by simp [hbody], by simp [hbody], ?_⟩
      constructor
      · intro l hl
        cases hl
      · intro first hfirst hdeclares l hl
        obtain rfl : line = first := Option.some.inj hfirst
        obtain rfl : l = line := List.mem_singleton.1 hl
        simpa [hdeclares] using hbody
    · simp [hbody] at hmode
  | true =>
    rw [Bool.and_eq_true] at hbody
    refine ⟨rfl, fun hmode => ?_, fun _ => ?_⟩
    · simp [hbody] at hmode
    · refine ⟨[], line, [], rfl, by simp [hbody], by simp [hbody], ?_⟩
      constructor
      · intro first hfirst
        obtain rfl : line = first := Option.some.inj hfirst
        exact hbody.1
      · exact hbody.2
      · intro l hl
        cases hl
      · intro l hl
        cases hl
      · exact unfinished_singleton line

theorem isClosed_eq_false {b : Begun} (h : ¬b.Closed) :
    ∀ last ∈ b.lines.getLast?, b.progress.isClosed last.text = false := by
  intro last hlast
  by_contra hclosed
  apply h
  intro other hother
  obtain rfl : last = other := Option.some.inj (hlast.symm.trans hother)
  simpa using hclosed

/-- Another line outside a body, which does not begin one. -/
theorem Sound.add_plain {b : Begun} (h : b.Sound) (hmode : b.progress.mode = .plain) {line : Line}
    (hbody : (b.progress.inFunction && beginsAtomic line.text) = false)
    (hlast : ∀ last ∈ b.lines.getLast?, isTerminated last.text = false) : (b.add line).Sound := by
  obtain ⟨hstart, hseen, hplain⟩ := h.plain hmode
  have hnext : b.progress.next line.text = b.progress :=
    Progress.next_of_plain hmode hseen hbody
  refine ⟨h.function, fun _ => ⟨?_, ?_, ?_⟩, fun hatomic => ?_⟩
  · simp [Begun.add, hnext, bodyStartAt, hmode, hstart]
  · simp [Begun.add, hnext, hseen]
  · apply hplain.concat (List.cons_ne_nil _ _) hlast
    intro first hfirst hdeclares
    obtain rfl : b.first = first := Option.some.inj hfirst
    rw [h.function, hdeclares, Bool.true_and] at hbody
    exact hbody
  · have hmode' : (b.add line).progress.mode = .plain := by simp [Begun.add, hnext, hmode]
    rw [hmode'] at hatomic
    cases hatomic

/-- The line that begins the body of a function. -/
theorem Sound.add_begins {b : Begun} (h : b.Sound) (hmode : b.progress.mode = .plain) {line : Line}
    (hbody : (b.progress.inFunction && beginsAtomic line.text) = true)
    (hlast : ∀ last ∈ b.lines.getLast?, isTerminated last.text = false) : (b.add line).Sound := by
  obtain ⟨hstart, hseen, hplain⟩ := h.plain hmode
  have hnext : b.progress.next line.text =
      { b.progress with mode := .atomicBody, seenEnd := endsBlock line.text } := by
    simp [Progress.next, hbody, hseen]
  rw [Bool.and_eq_true, h.function] at hbody
  refine ⟨h.function, fun hmode' => ?_, fun _ => ⟨b.lines, line, [], rfl, ?_, ?_, ?_⟩⟩
  · simp [Begun.add, hnext] at hmode'
  · simp [Begun.add, hnext, bodyStartAt, hmode, hstart]
  · simp [Begun.add, hnext]
  · constructor
    · intro first hfirst
      obtain rfl : b.first = first := Option.some.inj hfirst
      exact hbody.1
    · exact hbody.2
    · exact hplain.bodiless b.first rfl hbody.1
    · exact hplain.terminated_eq_false hlast
    · exact unfinished_singleton line

/-- Another line of a body. -/
theorem Sound.add_atomic {b : Begun} (h : b.Sound) (hmode : b.progress.mode = .atomicBody)
    (hopen : ∀ last ∈ b.lines.getLast?, b.progress.isClosed last.text = false) (line : Line) :
    (b.add line).Sound := by
  obtain ⟨before, start, rest, hlines, hstart, hseen, hbody⟩ := h.atomic hmode
  have hmode' : (b.add line).progress.mode = .atomicBody := by
    simp [Begun.add, Progress.next, hmode]
  refine ⟨h.function, fun hplain => ?_, fun _ => ⟨before, start, rest ++ [line], ?_, ?_, ?_, ?_⟩⟩
  · rw [hmode'] at hplain
    cases hplain
  · rw [lines_add, hlines, List.append_assoc, List.cons_append]
  · simp [Begun.add, hstart]
  · have hnext : (b.add line).progress.seenEnd = (b.progress.seenEnd || endsBlock line.text) := by
      simp [Begun.add, Progress.next, hmode]
    rw [hnext, hseen, ← List.cons_append, List.any_append]
    simp
  · refine { hbody with unfinished := ?_ }
    rw [← List.cons_append]
    apply hbody.unfinished.concat
    intro last hlast hend
    -- The statement would be closed if the body had ended.
    have hclosed : b.progress.isClosed last.text = false := by
      apply hopen
      rwa [hlines, List.getLast?_append_of_ne_nil _ (List.cons_ne_nil _ _)]
    have hnone : b.progress.seenEnd = false := by
      simpa [Progress.isClosed, hend, hmode] using hclosed
    rw [hseen] at hnone
    simpa using hnone

/-- A line that goes on with a statement keeps what is remembered in agreement with the lines. -/
theorem Sound.add {b : Begun} (h : b.Sound) (hopen : ¬b.Closed) (line : Line) :
    (b.add line).Sound := by
  have hlast := isClosed_eq_false hopen
  cases hmode : b.progress.mode with
  | plain =>
    have hend : ∀ last ∈ b.lines.getLast?, isTerminated last.text = false := by
      intro last hmem
      simpa [Progress.isClosed, hmode] using hlast last hmem
    cases hbody : b.progress.inFunction && beginsAtomic line.text with
    | false => exact h.add_plain hmode hbody hend
    | true => exact h.add_begins hmode hbody hend
  | atomicBody => exact h.add_atomic hmode hlast line

theorem sound_behind {current : Option Begun} (h : ∀ b ∈ current, b.Sound ∧ ¬b.Closed)
    (line : Line) : (behind current line).Sound := by
  cases current with
  | none => exact sound_ofFirst line
  | some b =>
    obtain ⟨hsound, hopen⟩ := h b rfl
    exact hsound.add hopen line

theorem lines_behind (current : Option Begun) (line : Line) :
    (behind current line).lines = current.toList.flatMap lines ++ [line] := by
  cases current with
  | none => rfl
  | some b => simp [behind, lines_add]

theorem closed_behind_iff (current : Option Begun) (line : Line) :
    (behind current line).Closed ↔ (behind current line).progress.isClosed line.text = true := by
  unfold Closed
  rw [lines_behind, List.getLast?_concat]
  constructor
  · intro h
    exact h line rfl
  · intro h last hlast
    rwa [← Option.some.inj hlast]

end Begun

/-- Lines are cut into statements that are closed, and one at the end that is not. -/
theorem cut_sound {current : Option Begun} (h : ∀ b ∈ current, b.Sound ∧ ¬b.Closed)
    (lines : List Line) :
    ∃ bs : List Begun, (cut current lines).1 = bs.map Begun.taken ∧
      (∀ b ∈ bs, b.Sound ∧ b.Closed) ∧ (∀ b ∈ (cut current lines).2, b.Sound ∧ ¬b.Closed) ∧
      (bs ++ (cut current lines).2.toList).flatMap Begun.lines =
        current.toList.flatMap Begun.lines ++ lines := by
  induction lines generalizing current with
  | nil =>
    refine ⟨[], rfl, ?_, h, (List.append_nil _).symm⟩
    intro b hb
    cases hb
  | cons line rest ih =>
    have hsound := Begun.sound_behind h line
    have hlines := Begun.lines_behind current line
    by_cases hclosed : (Begun.behind current line).progress.isClosed line.text = true
    · rw [cut_cons_of_closed rest hclosed]
      have hnone : ∀ b ∈ (none : Option Begun), b.Sound ∧ ¬b.Closed := by
        intro b hb
        cases hb
      obtain ⟨bs, hcut, hbs, hleft, hflat⟩ := ih hnone
      refine ⟨Begun.behind current line :: bs, by rw [hcut, List.map_cons], ?_, hleft, ?_⟩
      · intro b hb
        rcases List.mem_cons.1 hb with rfl | hb
        · exact ⟨hsound, (Begun.closed_behind_iff current line).2 hclosed⟩
        · exact hbs b hb
      · rw [List.cons_append, List.flatMap_cons, hflat, hlines]
        simp
    · rw [cut_cons_of_open rest hclosed]
      have hbehind : ∀ b ∈ some (Begun.behind current line), b.Sound ∧ ¬b.Closed := by
        intro b hb
        rw [← Option.some.inj hb]
        exact ⟨hsound, fun hb => hclosed ((Begun.closed_behind_iff current line).1 hb)⟩
      obtain ⟨bs, hcut, hbs, hleft, hflat⟩ := ih hbehind
      refine ⟨bs, hcut, hbs, hleft, hflat.trans ?_⟩
      rw [Option.toList_some, List.flatMap_singleton, hlines, List.append_assoc]
      rfl

/-- A statement and the lines it was read from. -/
structure Taken.ReadFrom (t : Taken) (lines : List Line) : Prop where
  keeps : Keeps (lines.map (·.text)) t.statement.lines
  number : lines.head?.map (·.number) = some t.statement.number
  plain : t.mode = .plain → PlainLines lines
  atomic : t.mode = .atomicBody → ∃ before start rest, lines = before ++ start :: rest ∧
    t.bodyStart = some start.number ∧ BodyLines before start rest

/-- The lines of a statement that the end of the dump does not cut short. -/
structure Taken.Finished (t : Taken) (lines : List Line) : Prop where
  terminated : ∃ last, lines.getLast? = some last ∧ isTerminated last.text = true
  atomic : t.mode = .atomicBody → ∃ before start rest, lines = before ++ start :: rest ∧
    t.bodyStart = some start.number ∧ ∃ line ∈ start :: rest, endsBlock line.text = true

theorem Begun.Sound.readFrom {b : Begun} (h : b.Sound)
    (hfilled : ∀ line ∈ b.lines, allBlank line.text = false) : b.taken.ReadFrom b.lines where
  keeps := keeps_ofLines b.first b.rest hfilled
  number := by
    show some b.first.number = some (Statement.ofLines b.first b.rest).number
    cases b.rest <;> rfl
  plain hmode := (h.plain hmode).2.2
  atomic hmode := by
    obtain ⟨before, start, rest, hlines, hstart, -, hbody⟩ := h.atomic hmode
    exact ⟨before, start, rest, hlines, hstart, hbody⟩

theorem Begun.Sound.finished {b : Begun} (h : b.Sound) (hclosed : b.Closed) :
    b.taken.Finished b.lines := by
  have hne : b.lines ≠ [] := List.cons_ne_nil _ _
  have hlast := hclosed (b.lines.getLast hne) (List.getLast?_eq_some_getLast hne)
  rw [Progress.isClosed, Bool.and_eq_true] at hlast
  constructor
  · exact ⟨b.lines.getLast hne, List.getLast?_eq_some_getLast hne, hlast.1⟩
  · intro hmode
    obtain ⟨before, start, rest, hlines, hstart, hseen, -⟩ := h.atomic hmode
    refine ⟨before, start, rest, hlines, hstart, ?_⟩
    have hmode' : b.progress.mode = .atomicBody := hmode
    have hend : b.progress.seenEnd = true := by simpa [hmode'] using hlast.2
    rw [hseen] at hend
    exact List.any_eq_true.1 hend

/-- The lines that are read fall into the statements of the dump, none being lost, repeated or
moved. Every statement but the last is finished. -/
theorem statements_lossless (lines : List (List Char)) :
    ∃ groups : List (List Line), groups.flatten = content lines ∧
      List.Forall₂ Taken.ReadFrom (statements lines) groups ∧
      ∀ p ∈ ((statements lines).zip groups).dropLast, p.1.Finished p.2 := by
  have hnone : ∀ b ∈ (none : Option Begun), b.Sound ∧ ¬b.Closed := by
    intro b hb
    cases hb
  obtain ⟨bs, hcut, hbs, hleft, hflat⟩ := cut_sound hnone (contentFrom 0 lines)
  generalize hopen : (cut none (contentFrom 0 lines)).2 = left at hleft hflat
  have hstatements : statements lines = (bs ++ left.toList).map Begun.taken := by
    rw [statements, group_eq_cut, hcut, hopen, List.map_append]
  have hcontent : (bs ++ left.toList).flatMap Begun.lines = content lines := by
    rw [hflat, contentFrom_eq_filter]
    rfl
  refine ⟨(bs ++ left.toList).map Begun.lines, ?_, ?_, ?_⟩
  · rw [← hcontent, List.flatMap_def]
  · rw [hstatements, List.forall₂_map_left_iff, List.forall₂_map_right_iff, List.forall₂_same]
    intro b hb
    have hsound : b.Sound := by
      rcases List.mem_append.1 hb with hb | hb
      · exact (hbs b hb).1
      · exact (hleft b (Option.mem_toList.1 hb)).1
    apply hsound.readFrom
    intro line hline
    have hmem : line ∈ content lines := by
      rw [← hcontent]
      exact List.mem_flatMap.2 ⟨b, hb, hline⟩
    simpa using (List.mem_filter.1 hmem).2
  · rw [hstatements, List.zip_map', ← List.map_dropLast]
    intro p hp
    obtain ⟨b, hb, rfl⟩ := List.mem_map.1 hp
    have hclosed : b ∈ bs := by
      cases left with
      | none =>
        rw [Option.toList_none, List.append_nil] at hb
        exact List.mem_of_mem_dropLast hb
      | some c => rwa [Option.toList_some, List.dropLast_concat] at hb
    exact (hbs b hclosed).1.finished (hbs b hclosed).2

end SchemaTransfer.Dump
