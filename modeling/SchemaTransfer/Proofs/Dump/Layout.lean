import SchemaTransfer.Proofs.Dump.Dashes
import SchemaTransfer.Proofs.Dump.FirstLine
import SchemaTransfer.Proofs.Dump.Statement
import SchemaTransfer.Proofs.Lines

/-!
# Statements laid out on lines

A statement is written as contents of lines, with blanks around each and a semicolon behind the
last or below it. It is read as one, and its lines are the ones that were written.
-/
namespace SchemaTransfer.Dump
open Unicode Scan

/-- The first character is no blank and not that of `BEGIN`. -/
def startsContent (cs : List Char) : Bool :=
  cs.head?.any fun c => !isBlank c && Casing.fold c != 'b'

/-- The last character is no blank and no semicolon. -/
def endsContent (cs : List Char) : Bool := cs.getLast?.any fun c => !isBlank c && c != ';'

/-- What may stand on a line of a statement: it has no comment, begins no body of a function, and
ends no statement. -/
structure Content (text : List Char) : Prop where
  oneLine : '\n' ∉ text
  starts : startsContent text = true
  ends : endsContent text = true
  kept : ∀ behind, '-' ∉ behind → beforeComment false (text ++ behind) = text ++ behind

/-- The blanks around what stands on a line. -/
structure Margin where
  before : List Char := []
  behind : List Char := []
  blank : allBlank (before ++ behind) = true
  oneLine : ∀ c ∈ before ++ behind, isReturnOrFeed c = false

/-- A number of spaces on either side. -/
def Margin.spaces (before behind : Nat) : Margin where
  before := List.replicate before ' '
  behind := List.replicate behind ' '
  blank := by
    rw [List.replicate_append_replicate, allBlank, List.all_replicate]
    simp [isBlank]
  oneLine c hc := by
    rw [List.replicate_append_replicate] at hc
    rw [List.eq_of_mem_replicate hc]
    rfl

def Margin.around (m : Margin) (content : List Char) : List Char :=
  m.before ++ (content ++ m.behind)

/-- Contents on lines, each with a margin of its own. -/
def setIn (margin : Nat → Margin) : List (List Char) → List (List Char)
  | [] => []
  | content :: contents =>
    (margin 0).around content :: setIn (fun n => margin (n + 1)) contents

/-- Margins with another one for the first line. -/
def replaceFirst (m : Margin) (margin : Nat → Margin) : Nat → Margin
  | 0 => m
  | n + 1 => margin (n + 1)

/-- How a statement is set out, whatever stands on its lines. -/
structure Sheet where
  /-- The margins of the lines, from the first on. -/
  margin : Nat → Margin
  /-- The blanks around a semicolon's place on a line of its own. -/
  below : Option Margin := none
  /-- The number of line feeds behind the semicolon. -/
  feeds : Nat := 0

namespace Sheet

/-- The lines up to the semicolon. -/
def body (s : Sheet) (contents : List (List Char)) : List (List Char) :=
  setIn s.margin contents ++ (s.below.map fun m => m.around []).toList

def lines (s : Sheet) (contents : List (List Char)) : List (List Char) :=
  terminated (s.body contents) ++ List.replicate s.feeds []

def text (s : Sheet) (contents : List (List Char)) : String :=
  .ofList (['\n'].intercalate (s.lines contents))

end Sheet

/-- Spaces before each line, as many as a list has for it. -/
def stepped (widths : List Nat) : Sheet where
  margin n := .spaces (widths.getD n 0) 0

section

variable {text indent behind : List Char}

theorem Content.exists_eq_cons (h : Content text) :
    ∃ c cs, text = c :: cs ∧ isBlank c = false ∧ Casing.fold c ≠ 'b' := by
  cases htext : text with
  | nil =>
    have hstarts := h.starts
    rw [htext] at hstarts
    cases hstarts
  | cons c cs =>
    have hstarts := h.starts
    rw [htext] at hstarts
    exact ⟨c, cs, rfl, by simpa [startsContent] using hstarts⟩

theorem Content.exists_eq_concat (h : Content text) :
    ∃ init c, text = init ++ [c] ∧ isBlank c = false ∧ c ≠ ';' := by
  have hends := h.ends
  rcases List.eq_nil_or_concat text with rfl | ⟨init, c, rfl⟩
  · cases hends
  · refine ⟨init, c, List.concat_eq_append, ?_⟩
    simpa [endsContent] using hends

theorem content_of_dashFree (hline : '\n' ∉ text) (hstarts : startsContent text = true)
    (hends : endsContent text = true) (hdash : DashFree text) : Content text :=
  ⟨hline, hstarts, hends, fun _ hbehind => beforeComment_of_dashFree (hdash.append hbehind) false⟩

theorem content_words {w : List Char} (hline : '\n' ∉ w) (hdash : '-' ∉ w)
    (hstarts : startsContent w = true) (hends : endsContent w = true) : Content w :=
  content_of_dashFree hline hstarts hends (dashFree_of_not_mem hdash)

/-- What has no hyphen and no quote is kept before a text. -/
theorem beforeComment_append {a : List Char} (hdash : '-' ∉ a) (hquote : '\'' ∉ a)
    (cs : List Char) : beforeComment false (a ++ cs) = a ++ beforeComment false cs := by
  induction a with
  | nil => rfl
  | cons c a ih =>
    obtain ⟨hcdash, hdash⟩ := List.ne_and_not_mem_of_not_mem_cons hdash
    obtain ⟨hcquote, hquote⟩ := List.ne_and_not_mem_of_not_mem_cons hquote
    rw [List.cons_append, beforeComment_cons (fun h => absurd h.symm hcdash),
      beq_eq_false_iff_ne.2 (Ne.symm hcquote)]
    exact congrArg (c :: ·) (ih hdash hquote)

theorem isReturnOrFeed_of_not_blank {c : Char} (h : isBlank c = false) :
    isReturnOrFeed c = false := by
  unfold isReturnOrFeed
  rw [Bool.or_eq_false_iff, beq_eq_false_iff_ne, beq_eq_false_iff_ne]
  exact ⟨ne_of_apply_ne isBlank (by rw [h]; decide), ne_of_apply_ne isBlank (by rw [h]; decide)⟩

/-- A line is read as it was written, with its end or the semicolon behind it. -/
theorem Content.stripComment_eq_self (h : Content text) (hindent : allBlank indent = true)
    (hdash : '-' ∉ behind) (hend : ∀ c ∈ behind.getLast?, isReturnOrFeed c = false) :
    stripComment (indent ++ (text ++ behind)) = indent ++ (text ++ behind) := by
  refine Dump.stripComment_eq_self ?_ fun c hc => ?_
  · rw [beforeComment_append (not_mem_of_all hindent (by decide))
      (not_mem_of_all hindent (by decide)), h.kept behind hdash]
  · rcases List.eq_nil_or_concat behind with rfl | ⟨init, d, rfl⟩
    · obtain ⟨init, d, rfl, hd, -⟩ := h.exists_eq_concat
      rw [List.append_nil, ← List.append_assoc, List.getLast?_concat] at hc
      cases hc
      exact isReturnOrFeed_of_not_blank hd
    · rw [List.concat_eq_append] at hc hend
      rw [← List.append_assoc, ← List.append_assoc, List.getLast?_concat] at hc
      rw [List.getLast?_concat] at hend
      exact hend c hc

theorem Content.allBlank_eq_false (h : Content text) :
    allBlank (indent ++ (text ++ behind)) = false := by
  obtain ⟨c, cs, rfl, hc, -⟩ := h.exists_eq_cons
  exact List.all_eq_false.2 ⟨c, by simp, by simp [hc]⟩

theorem Content.isTerminated_eq_false (h : Content text) (hbehind : allBlank behind = true) :
    isTerminated (indent ++ (text ++ behind)) = false := by
  obtain ⟨init, c, rfl, hc, hsemicolon⟩ := h.exists_eq_concat
  rw [isTerminated, ← List.append_assoc, trimRight_append_of_allBlank hbehind, ← List.append_assoc,
    trimRight_eq_rdropWhile, List.rdropWhile_concat_neg _ _ _ (by simp [hc]),
    List.getLast?_concat]
  simpa using hsemicolon

/-- A word may stand before the contents of a line. -/
theorem Content.append_word (h : Content text) {w : List Char} (hline : '\n' ∉ w)
    (hstarts : startsContent w = true) (hdash : '-' ∉ w) (hquote : '\'' ∉ w) :
    Content (w ++ text) where
  oneLine := List.not_mem_append hline h.oneLine
  starts := any_head?_append hstarts text
  ends := any_getLast?_append w h.ends
  kept behind hbehind := by
    rw [List.append_assoc, beforeComment_append hdash hquote, h.kept behind hbehind]

theorem beginsAtomic_of_ne {c : Char} (hc : isBlank c = false) (hb : Casing.fold c ≠ 'b')
    (hindent : allBlank indent = true) (cs : List Char) :
    beginsAtomic (indent ++ c :: cs) = false := by
  have hkeyword : keyword? "begin" (c :: cs) = none := by
    show keywordChars? ('b' :: "egin".toList) (c :: cs) = none
    rw [keywordChars?]
    exact if_neg (by simpa using hb)
  rw [beginsAtomic, trimLeft_append hindent, trimLeft_cons hc, hkeyword]
  rfl

theorem Content.beginsAtomic_eq_false (h : Content text) (hindent : allBlank indent = true) :
    beginsAtomic (indent ++ (text ++ behind)) = false := by
  obtain ⟨c, cs, rfl, hc, hb⟩ := h.exists_eq_cons
  exact beginsAtomic_of_ne hc hb hindent (cs ++ behind)

end

/-- Where no line begins the body of a function, none is left open. -/
theorem foldl_next_mode {p : Progress} {lines : List (List Char)} (hp : p.mode = .plain)
    (h : ∀ line ∈ lines, beginsAtomic line = false) :
    (lines.foldl Progress.next p).mode = .plain := by
  induction lines generalizing p with
  | nil => exact hp
  | cons line rest ih =>
    refine ih ?_ fun l hl => h l (List.mem_cons_of_mem _ hl)
    simp [Progress.next, h line List.mem_cons_self, hp]

/-- A line that is read as it is and that the statement goes on behind. -/
structure Inner (line : List Char) : Prop where
  kept : stripComment line = line
  filled : allBlank line = false
  goesOn : isTerminated line = false
  plain : beginsAtomic line = false

theorem holds_concat {init : List (List Char)} {last : List Char}
    (hinit : ∀ line ∈ init, Inner line) (hkept : stripComment (last ++ [';']) = last ++ [';'])
    (hplain : beginsAtomic (last ++ [';']) = false) : Holds (init ++ [last ++ [';']]) where
  kept := List.forall_mem_append.2
    ⟨fun line hline => (hinit line hline).kept, List.forall_mem_singleton.2 hkept⟩
  filled := List.forall_mem_append.2 ⟨fun line hline => (hinit line hline).filled,
    List.forall_mem_singleton.2 (List.all_eq_false.2 ⟨';', by simp, by decide⟩)⟩
  goesOn := by
    rw [List.dropLast_concat]
    exact fun line hline => (hinit line hline).goesOn
  ends := by
    rw [List.getLast?_concat]
    rintro _ ⟨⟩
    exact isTerminated_concat last
  closed := by
    have hall : ∀ line ∈ init ++ [last ++ [';']], beginsAtomic line = false :=
      List.forall_mem_append.2
        ⟨fun line hline => (hinit line hline).plain, List.forall_mem_singleton.2 hplain⟩
    refine .inl ?_
    cases hlines : init ++ [last ++ [';']] with
    | nil => rfl
    | cons first rest => exact foldl_next_mode rfl (hlines ▸ hall)

namespace Margin

variable {text : List Char}

theorem allBlank_before (m : Margin) : allBlank m.before = true := by
  have hblank := m.blank
  rw [allBlank, List.all_append, Bool.and_eq_true] at hblank
  exact hblank.1

theorem allBlank_behind (m : Margin) : allBlank m.behind = true := by
  have hblank := m.blank
  rw [allBlank, List.all_append, Bool.and_eq_true] at hblank
  exact hblank.2

theorem not_mem_of_not_blank (m : Margin) {c : Char} (h : isBlank c = false) :
    c ∉ m.before ∧ c ∉ m.behind :=
  ⟨not_mem_of_all m.allBlank_before h, not_mem_of_all m.allBlank_behind h⟩

theorem feedFree (m : Margin) : '\n' ∉ m.before ∧ '\n' ∉ m.behind := by
  constructor
  all_goals
    intro hfeed
    have hfalse := m.oneLine '\n' (by simp [hfeed])
    cases hfalse

/-- Without the blanks before the text. -/
def flush (m : Margin) : Margin where
  before := []
  behind := m.behind
  blank := m.allBlank_behind
  oneLine c hc := m.oneLine c (List.mem_append_right _ hc)

/-- The text stands on a line of its own. -/
theorem inner (m : Margin) (h : Content text) : Inner (m.around text) where
  kept := h.stripComment_eq_self m.allBlank_before (m.not_mem_of_not_blank (by decide)).2
    fun c hc => m.oneLine c (List.mem_append_right _ (List.mem_of_mem_getLast? hc))
  filled := h.allBlank_eq_false
  goesOn := h.isTerminated_eq_false m.allBlank_behind
  plain := h.beginsAtomic_eq_false m.allBlank_before

theorem oneLine_around (m : Margin) (h : '\n' ∉ text) : '\n' ∉ m.around text := by
  simp [around, m.feedFree, h]

theorem trimLeft_around (m : Margin) (h : Content text) :
    trimLeft (m.around text) = text ++ m.behind := by
  obtain ⟨c, cs, rfl, hc, -⟩ := h.exists_eq_cons
  rw [around, trimLeft_append m.allBlank_before, List.cons_append, trimLeft_cons hc]

theorem trim_around (m : Margin) (h : Content text) : trim (m.around text) = text := by
  obtain ⟨init, c, hconcat, hc, -⟩ := h.exists_eq_concat
  rw [trim, m.trimLeft_around h, trimRight_append_of_allBlank m.allBlank_behind, hconcat,
    trimRight_eq_rdropWhile, List.rdropWhile_concat_neg _ _ _ (by simp [hc])]

/-- A semicolon may follow the text on its line. -/
theorem holds_around (m : Margin) {init : List (List Char)} (hinit : ∀ line ∈ init, Inner line)
    (h : Content text) : Holds (init ++ [m.around text ++ [';']]) := by
  have hdash : '-' ∉ m.behind ++ [';'] := by
    simp [(m.not_mem_of_not_blank (show isBlank '-' = false by decide)).2]
  have hline : m.around text ++ [';'] = m.before ++ (text ++ (m.behind ++ [';'])) := by
    rw [around, List.append_assoc, List.append_assoc]
  refine holds_concat hinit ?_ ?_
  · rw [hline]
    exact h.stripComment_eq_self m.allBlank_before hdash (by simp; decide)
  · rw [hline]
    exact h.beginsAtomic_eq_false m.allBlank_before

/-- A semicolon may stand on a line of its own. -/
theorem holds_around_nil (m : Margin) {init : List (List Char)}
    (hinit : ∀ line ∈ init, Inner line) : Holds (init ++ [m.around [] ++ [';']]) := by
  have hdash : '-' ∉ (m.before ++ m.behind) ++ [';'] := by
    simp [m.not_mem_of_not_blank (show isBlank '-' = false by decide)]
  refine holds_concat hinit ?_ (beginsAtomic_of_ne (by decide) (by decide) m.blank [])
  exact Dump.stripComment_eq_self (beforeComment_of_dashFree (dashFree_of_not_mem hdash) false)
    (by simp; decide)

end Margin

/-- The blanks before a first line do not tell its form. -/
theorem ofLine?_around {text : List Char} (h : Content text) (m : Margin) :
    Form.ofLine? (m.around text) = Form.ofLine? (text ++ m.behind) := by
  obtain ⟨c, cs, rfl, hc, -⟩ := h.exists_eq_cons
  refine ofLine?_congr ?_
  rw [m.trimLeft_around h]
  exact (trimLeft_cons hc _).symm

theorem forall_setIn {p : List Char → Prop} {contents : List (List Char)}
    (h : ∀ text ∈ contents, ∀ m : Margin, p (m.around text)) (margin : Nat → Margin) :
    ∀ line ∈ setIn margin contents, p line := by
  induction contents generalizing margin with
  | nil => exact fun _ hline => absurd hline List.not_mem_nil
  | cons text contents ih =>
    rw [List.forall_mem_cons] at h
    exact List.forall_mem_cons.2 ⟨h.1 (margin 0), ih h.2 _⟩

theorem setIn_append (margin : Nat → Margin) (xs ys : List (List Char)) :
    setIn margin (xs ++ ys) =
      setIn margin xs ++ setIn (fun n => margin (n + xs.length)) ys := by
  induction xs generalizing margin with
  | nil => rfl
  | cons x xs ih =>
    rw [List.cons_append, setIn, setIn, ih, List.cons_append]
    rfl

theorem statements_replicate (n : Nat) : statements (List.replicate n []) = [] := by
  have hnone (k : Nat) : contentFrom k (List.replicate n []) = [] := by
    induction n generalizing k with
    | zero => rfl
    | succ n ih => exact ih (k + 1)
  rw [statements, hnone, group]

namespace Sheet

variable {first : List Char} {contents : List (List Char)}

theorem holds (s : Sheet) (h : ∀ text ∈ contents, Content text) (hne : contents ≠ []) :
    Holds (terminated (s.body contents)) := by
  have hinner {contents : List (List Char)} (h : ∀ text ∈ contents, Content text) :
      ∀ line ∈ setIn s.margin contents, Inner line :=
    forall_setIn (fun text htext m => m.inner (h text htext)) s.margin
  unfold body
  cases s.below with
  | some m =>
    rw [Option.map_some, Option.toList_some, terminated_concat]
    exact m.holds_around_nil (hinner h)
  | none =>
    rw [Option.map_none, Option.toList_none, List.append_nil]
    obtain ⟨init, last, rfl⟩ : ∃ init last, contents = init ++ [last] :=
      ⟨_, _, (List.dropLast_concat_getLast hne).symm⟩
    rw [setIn_append, setIn, setIn, terminated_concat]
    rw [List.forall_mem_append, List.forall_mem_singleton] at h
    exact Margin.holds_around _ (hinner h.1) h.2

theorem closing_body (s : Sheet) (margin : Nat → Margin) (h : ∀ text ∈ contents, Content text) :
    closing (terminated (setIn margin contents ++ (s.below.map fun m => m.around []).toList)) =
      setIn margin contents := by
  cases s.below with
  | some m =>
    have hblank : allBlank (m.around []) = true := m.blank
    rw [Option.map_some, Option.toList_some, closing_terminated_concat, if_pos hblank,
      List.append_nil]
  | none =>
    have hfilled : ∀ line ∈ setIn margin contents, allBlank line = false :=
      forall_setIn (fun text htext m => (m.inner (h text htext)).filled) margin
    rw [Option.map_none, Option.toList_none, List.append_nil, closing_terminated]
    exact fun line hline => hfilled line (List.mem_of_mem_getLast? hline)

/-- What is set out on two or more lines is read as one statement. -/
theorem statements_lines (s : Sheet) (h : ∀ text ∈ first :: contents, Content text)
    (hne : contents ≠ []) :
    ∃ t, statements (s.lines (first :: contents)) = [t] ∧
      t.statement =
        ⟨(s.margin 0).around first, setIn (fun n => s.margin (n + 1)) contents, 1⟩ := by
  have hrest : setIn (fun n => s.margin (n + 1)) contents ++
      (s.below.map fun m => m.around []).toList ≠ [] := by
    cases contents with
    | nil => exact absurd rfl hne
    | cons text contents => exact List.cons_ne_nil _ _
  obtain ⟨hends, t, ht, hstatement⟩ :=
    Holds.statement_of_terminated_cons hrest (s.holds h (List.cons_ne_nil _ _))
  rw [s.closing_body _ (List.forall_mem_cons.1 h).2] at hstatement
  refine ⟨t, ?_, hstatement⟩
  rw [lines, body, setIn, List.cons_append, statements_append hends, ht, statements_replicate]
  rfl

/-- The lines of the text are those that were set out. -/
theorem linesOf_text (s : Sheet) (h : ∀ text ∈ contents, Content text) (hne : contents ≠ []) :
    linesOf (s.text contents) = s.lines contents := by
  have hbody : ∀ line ∈ s.body contents, '\n' ∉ line := by
    refine List.forall_mem_append.2 ⟨forall_setIn
      (fun text htext m => m.oneLine_around (h text htext).oneLine) s.margin, ?_⟩
    cases s.below with
    | none => exact fun _ hline => absurd hline List.not_mem_nil
    | some m => exact List.forall_mem_singleton.2 (m.oneLine_around List.not_mem_nil)
  have hbodyne : s.body contents ≠ [] := by
    cases contents with
    | nil => exact absurd rfl hne
    | cons text contents => exact List.cons_ne_nil _ _
  obtain ⟨init, last, hlast⟩ : ∃ init last, s.body contents = init ++ [last] :=
    ⟨_, _, (List.dropLast_concat_getLast hbodyne).symm⟩
  rw [hlast, List.forall_mem_append, List.forall_mem_singleton] at hbody
  rw [linesOf, text, String.toList_ofList, lines, hlast, terminated_concat,
    List.splitOn_intercalate _ _ (by simp)]
  refine List.forall_mem_append.2 ⟨List.forall_mem_append.2 ⟨hbody.1, ?_⟩, ?_⟩
  · rw [List.forall_mem_singleton]
    simp [hbody.2]
  · intro line hline
    rw [List.eq_of_mem_replicate hline]
    exact List.not_mem_nil

end Sheet

end SchemaTransfer.Dump
