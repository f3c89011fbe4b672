import SchemaTransfer.Proofs.Dump.Lossless
import SchemaTransfer.Proofs.Dump.Scan

/-!
# Functions with a body

A function whose body is a block, `BEGIN ATOMIC` on a line of its own up to a line `END;`, is one
statement if no line of its body ends in `END`. The reader does not count the blocks that are open:
the first line ending in `END` counts as the end of the whole body. With such a line inside the
body, of a nested block or of a `CASE`, the statement ends with the next line from there on that
ends in a semicolon, and the rest of the function is read as statements of their own.
-/
namespace SchemaTransfer.Dump
open Unicode Scan

/-- Inside a body only the ends of blocks are remembered. -/
theorem Progress.foldl_next_atomic (inFunction seenEnd : Bool) (lines : List (List Char)) :
    lines.foldl Progress.next ⟨inFunction, .atomicBody, seenEnd⟩ =
      ⟨inFunction, .atomicBody, seenEnd || lines.any endsBlock⟩ := by
  induction lines generalizing seenEnd with
  | nil => simp
  | cons line rest ih =>
    have hnext : Progress.next ⟨inFunction, .atomicBody, seenEnd⟩ line =
        ⟨inFunction, .atomicBody, seenEnd || endsBlock line⟩ := by
      simp [Progress.next]
    rw [List.foldl_cons, hnext, ih, List.any_cons, Bool.or_assoc]

/-- Lines before the first end of a block leave the body open. -/
theorem cut_body {b : Begun} {inFunction : Bool}
    (hb : b.progress = ⟨inFunction, .atomicBody, false⟩) {lines : List Line}
    (h : ∀ line ∈ lines, endsBlock line.text = false) (more : List Line) :
    cut (some b) (lines ++ more) = cut (some (lines.foldl Begun.add b)) more := by
  induction lines generalizing b with
  | nil => rfl
  | cons line rest ih =>
    have hline := h line List.mem_cons_self
    have hnext : (b.add line).progress = ⟨inFunction, .atomicBody, false⟩ := by
      simp [Begun.add, Progress.next, hb, hline]
    have hopen : ¬(Begun.behind (some b) line).progress.isClosed line.text = true := by
      simp [Begun.behind, hnext, Progress.isClosed]
    rw [List.cons_append, cut_cons_of_open _ hopen]
    exact ih hnext fun l hl => h l (List.mem_cons_of_mem _ hl)

/-- The lines of a function with a body, up to the one that ends the statement: the lines before
the body, the line that begins it, lines of which none ends in `END`, and lines from the first
such end on. -/
structure BodyCut (first : Line) (header : List Line) (opening : Line) (quiet behind : List Line)
    (stop : Line) : Prop where
  declares : declaresFunction first.text = true
  goesOn : ∀ line ∈ first :: header, isTerminated line.text = false
  bodiless : ∀ line ∈ first :: header, beginsAtomic line.text = false
  begins : beginsAtomic opening.text = true
  quiet : ∀ line ∈ opening :: quiet, endsBlock line.text = false
  unterminated : ∀ line ∈ behind, isTerminated line.text = false
  ended : (behind ++ [stop]).any (endsBlock ·.text) = true
  terminated : isTerminated stop.text = true

namespace BodyCut

variable {first opening stop : Line} {header quiet behind : List Line}

/-- What is remembered once the body has begun. -/
theorem progress_opening (h : BodyCut first header opening quiet behind stop) :
    ((header.foldl Begun.add (.ofFirst first)).add opening).progress =
      ⟨true, .atomicBody, false⟩ := by
  have hfirst : (Begun.ofFirst first).progress = ⟨true, .plain, false⟩ := by
    have hbegins : beginsAtomic first.text = false := h.bodiless first List.mem_cons_self
    simp [Begun.ofFirst, h.declares, Progress.next, hbegins]
  have hheader : ∀ lines : List (List Char), (∀ line ∈ lines, beginsAtomic line = false) →
      lines.foldl Progress.next ⟨true, .plain, false⟩ = ⟨true, .plain, false⟩ := by
    intro lines hlines
    induction lines with
    | nil => rfl
    | cons line rest ih =>
      have hline : beginsAtomic line = false := hlines line List.mem_cons_self
      rw [List.foldl_cons, Progress.next_of_plain rfl rfl (by rw [hline, Bool.and_false])]
      exact ih fun l hl => hlines l (List.mem_cons_of_mem _ hl)
  have hopening : endsBlock opening.text = false := h.quiet opening List.mem_cons_self
  have hprogress := (Begun.foldl_add (.ofFirst first) header).2.2
  rw [hfirst, hheader] at hprogress
  · simp [Begun.add, hprogress, Progress.next, h.begins, hopening]
  · intro text htext
    obtain ⟨line, hline, rfl⟩ := List.mem_map.1 htext
    exact h.bodiless line (List.mem_cons_of_mem _ hline)

/-- The lines make one statement. -/
theorem cut_eq (h : BodyCut first header opening quiet behind stop) :
    ∃ t : Taken, t.mode = .atomicBody ∧
      cut none (first :: (header ++ opening :: (quiet ++ (behind ++ [stop])))) = ([t], none) := by
  have hfirst : ¬(Begun.behind none first).progress.isClosed first.text = true := by
    simp [Progress.isClosed, h.goesOn first List.mem_cons_self]
  have hprogress := h.progress_opening
  rw [cut_cons_of_open _ hfirst,
    cut_goesOn fun line hline => h.goesOn line (List.mem_cons_of_mem _ hline)]
  have hopening : ¬(Begun.behind (some (header.foldl Begun.add (Begun.behind none first)))
      opening).progress.isClosed opening.text = true := by
    dsimp only [Begun.behind]
    simp [hprogress, Progress.isClosed]
  rw [cut_cons_of_open _ hopening]
  dsimp only [Begun.behind]
  generalize (header.foldl Begun.add (.ofFirst first)).add opening = b at hprogress
  rw [cut_body hprogress fun line hline => h.quiet line (List.mem_cons_of_mem _ hline),
    cut_goesOn h.unterminated]
  have hended : ((quiet ++ (behind ++ [stop])).map (·.text)).any endsBlock = true := by
    rw [List.any_map, List.any_append, Bool.or_eq_true]
    exact .inr h.ended
  have hstop : (Begun.behind (some (behind.foldl Begun.add (quiet.foldl Begun.add b)))
      stop).progress = ⟨true, .atomicBody, true⟩ := by
    have hlines : Begun.behind (some (behind.foldl Begun.add (quiet.foldl Begun.add b))) stop =
        (quiet ++ (behind ++ [stop])).foldl Begun.add b := by
      simp [Begun.behind]
    rw [hlines, (Begun.foldl_add b _).2.2, hprogress, Progress.foldl_next_atomic, hended]
    rfl
  refine ⟨_, congrArg Progress.mode hstop, cut_cons_of_closed [] ?_⟩
  simp [hstop, Progress.isClosed, h.terminated]

end BodyCut

theorem keyword?_eq_none_of_allBlank {w : String} {d : Char} {ws : List Char}
    (hw : w.toList = d :: ws)
    (hd : ∀ n ∈ blankCodes, (Casing.fold (Char.ofNat n) == d) = false) {cs : List Char}
    (h : allBlank cs = true) : keyword? w cs = none := by
  rw [keyword?, hw]
  cases cs with
  | nil => rfl
  | cons c cs =>
    have hc : isBlank c = true := List.all_eq_true.1 h c List.mem_cons_self
    have hfold : (Casing.fold c == d) = false := by
      by_contra hsame
      rw [Bool.not_eq_false] at hsame
      rw [eq_false_of_isBlank (p := fun c => Casing.fold c == d) hd hsame] at hc
      cases hc
    simp [keywordChars?, hfold]

theorem declaresFunction_of_allBlank {line : List Char} (h : allBlank line = true) :
    declaresFunction line = false := by
  have hnone : ∀ cs, allBlank cs = true → keyword? "create" cs = none := fun cs hcs =>
    keyword?_eq_none_of_allBlank rfl (by decide +kernel) hcs
  unfold declaresFunction
  induction line with
  | nil => rfl
  | cons c cs ih =>
    have hcs : allBlank cs = true := by
      rw [allBlank, List.all_cons, Bool.and_eq_true] at h
      exact h.2
    rw [search?, hnone _ h]
    exact ih hcs

theorem beginsAtomic_of_allBlank {line : List Char} (h : allBlank line = true) :
    beginsAtomic line = false := by
  have hempty : trimLeft line = [] := by
    have htrim := trimLeft_append h []
    rwa [List.append_nil] at htrim
  rw [beginsAtomic, hempty]
  rfl

theorem endsBlock_of_allBlank {line : List Char} (h : allBlank line = true) :
    endsBlock line = false := by
  have hnone : ∀ cs, allBlank cs = true → endsBlock.atEnd cs = false := by
    intro cs hcs
    rw [endsBlock.atEnd, keyword?_eq_none_of_allBlank rfl (by decide +kernel) hcs]
  have hgo : ∀ inWord cs, allBlank cs = true → endsBlock.go inWord cs = false := by
    intro inWord cs hcs
    induction cs generalizing inWord with
    | nil => rfl
    | cons c cs ih =>
      rw [endsBlock.go, hnone _ hcs, Bool.and_false, Bool.false_or]
      rw [allBlank, List.all_cons, Bool.and_eq_true] at hcs
      exact ih _ hcs.2
  exact hgo false line h

theorem isTerminated_of_allBlank {line : List Char} (h : allBlank line = true) :
    isTerminated line = false := by
  have hempty : trimRight line = [] := by
    have htrim := trimRight_append_of_allBlank h []
    rwa [List.nil_append] at htrim
  rw [isTerminated, hempty]
  rfl

theorem forall_contentFrom {p : List Char → Bool} {lines : List (List Char)}
    (h : ∀ raw ∈ lines, p (stripComment raw) = false) (n : Nat) :
    ∀ line ∈ contentFrom n lines, p line.text = false := by
  intro line hline
  obtain ⟨raw, hraw, htext⟩ := mem_contentFrom hline
  rw [htext]
  exact h raw hraw

/-- What blank lines are not is a line with something on it. -/
theorem visible {p : List Char → Bool} (hp : ∀ {line}, allBlank line = true → p line = false)
    {line : List Char} (h : p line = true) : allBlank line = false := by
  by_contra hblank
  rw [Bool.not_eq_false] at hblank
  rw [hp hblank] at h
  cases h

theorem contentFrom_cons_of_visible {raw : List Char} (h : allBlank (stripComment raw) = false)
    (n : Nat) (rest : List (List Char)) :
    contentFrom n (raw :: rest) = ⟨n + 1, stripComment raw⟩ :: contentFrom (n + 1) rest := by
  rw [contentFrom]
  exact if_neg (by simp [h])

theorem exists_mem_contentFrom {raw : List Char} {lines : List (List Char)} (hraw : raw ∈ lines)
    (h : allBlank (stripComment raw) = false) (n : Nat) :
    ∃ i, ⟨i, stripComment raw⟩ ∈ contentFrom n lines := by
  obtain ⟨before, after, rfl⟩ := List.append_of_mem hraw
  rw [contentFrom_append, contentFrom_cons_of_visible h]
  exact ⟨_, List.mem_append_right _ List.mem_cons_self⟩

/-- What becomes of lines that make one statement, whatever follows. -/
theorem statements_of_cut {lines : List (List Char)} {t : Taken}
    (h : cut none (content lines) = ([t], none)) (more : List (List Char)) :
    statements (lines ++ more) = t :: (statements more).map (Taken.down lines.length) ∧
      t.ReadFrom (content lines) := by
  have hcontent : contentFrom 0 lines = content lines := contentFrom_eq_filter 0 lines
  have hends : Ends lines := by rw [Ends, hcontent, h]
  have hlines : statements lines = [t] := by
    rw [statements, group_eq_cut, hcontent, h]
    rfl
  refine ⟨by rw [statements_append hends, hlines, List.singleton_append], ?_⟩
  obtain ⟨groups, hgroups, hread, -⟩ := statements_lossless lines
  rw [hlines] at hread
  obtain ⟨group, rest, hgroup, hrest, rfl⟩ := List.forall₂_cons_left_iff.1 hread
  rw [List.forall₂_nil_left_iff.1 hrest, List.flatten_singleton] at hgroups
  rwa [← hgroups]

/-- The text of a function whose body is a block. Blank lines and comments may stand anywhere. -/
structure FunctionText where
  first : List Char
  /-- The lines between the first and the body. -/
  header : List (List Char)
  /-- The line of `BEGIN ATOMIC`. -/
  opening : List Char
  body : List (List Char)
  /-- The line of the closing `END;`. -/
  closing : List Char
  declares : declaresFunction (stripComment first) = true
  goesOn : ∀ raw ∈ first :: header, isTerminated (stripComment raw) = false
  bodiless : ∀ raw ∈ first :: header, beginsAtomic (stripComment raw) = false
  begins : beginsAtomic (stripComment opening) = true
  alone : endsBlock (stripComment opening) = false
  /-- Each statement of the body ends in a semicolon, so its last line does. -/
  terminated : ∀ line ∈ (content body).getLast?, isTerminated line.text = true
  ends : endsBlock (stripComment closing) = true
  closes : isTerminated (stripComment closing) = true

namespace FunctionText

/-- The lines up to the one that begins the body. -/
def front (f : FunctionText) : List (List Char) := f.first :: (f.header ++ [f.opening])

def lines (f : FunctionText) : List (List Char) := f.front ++ (f.body ++ [f.closing])

/-- A function up to the first line that ends in a semicolon and has, or follows, a line ending in
`END`: these lines are one statement. -/
theorem statements_upTo (f : FunctionText) {quiet behind : List (List Char)} {stop : List Char}
    (hquiet : ∀ raw ∈ quiet, endsBlock (stripComment raw) = false)
    (hbehind : ∀ raw ∈ behind, isTerminated (stripComment raw) = false)
    (hended : ∃ raw ∈ behind ++ [stop], endsBlock (stripComment raw) = true)
    (hstop : isTerminated (stripComment stop) = true) (more : List (List Char)) :
    ∃ t, statements (f.front ++ (quiet ++ (behind ++ [stop])) ++ more) =
        t :: (statements more).map
          (Taken.down (f.front ++ (quiet ++ (behind ++ [stop]))).length) ∧
      t.mode = .atomicBody ∧ t.ReadFrom (content (f.front ++ (quiet ++ (behind ++ [stop])))) := by
  have hgoesOn := f.goesOn
  have hbodiless := f.bodiless
  have hbody (h i j k l m : Nat) : BodyCut ⟨h, stripComment f.first⟩ (contentFrom i f.header)
      ⟨j, stripComment f.opening⟩ (contentFrom k quiet) (contentFrom l behind)
      ⟨m, stripComment stop⟩ := by
    refine ⟨f.declares, ?_, ?_, f.begins, ?_, forall_contentFrom hbehind _, ?_, hstop⟩
    · rw [List.forall_mem_cons] at hgoesOn ⊢
      exact ⟨hgoesOn.1, forall_contentFrom hgoesOn.2 _⟩
    · rw [List.forall_mem_cons] at hbodiless ⊢
      exact ⟨hbodiless.1, forall_contentFrom hbodiless.2 _⟩
    · exact List.forall_mem_cons.2 ⟨f.alone, forall_contentFrom hquiet _⟩
    · obtain ⟨raw, hraw, hend⟩ := hended
      rw [List.any_append, Bool.or_eq_true, List.any_eq_true]
      rcases List.mem_append.1 hraw with hraw | hraw
      · obtain ⟨n, hmem⟩ := exists_mem_contentFrom hraw (visible endsBlock_of_allBlank hend) l
        exact .inl ⟨_, hmem, hend⟩
      · rw [List.mem_singleton.1 hraw] at hend
        exact .inr (by simpa using hend)
  obtain ⟨t, hmode, hcut⟩ : ∃ t : Taken, t.mode = .atomicBody ∧
      cut none (content (f.front ++ (quiet ++ (behind ++ [stop])))) = ([t], none) := by
    rw [content, ← contentFrom_eq_filter, front, List.cons_append, List.append_assoc,
      List.singleton_append,
      contentFrom_cons_of_visible (visible declaresFunction_of_allBlank f.declares),
      contentFrom_append, contentFrom_cons_of_visible (visible beginsAtomic_of_allBlank f.begins),
      contentFrom_append, contentFrom_append,
      contentFrom_cons_of_visible (visible isTerminated_of_allBlank hstop)]
    exact (hbody ..).cut_eq
  obtain ⟨hstatements, hread⟩ := statements_of_cut hcut more
  exact ⟨t, hstatements, hmode, hread⟩

/-- From a line on that ends in `END`, some line of the body ends in a semicolon. -/
theorem exists_isTerminated (f : FunctionText) {before after : List (List Char)} {raw : List Char}
    (hbody : f.body = before ++ raw :: after) (hend : endsBlock (stripComment raw) = true) :
    ∃ last ∈ raw :: after, isTerminated (stripComment last) = true := by
  have hne : contentFrom (0 + before.length) (raw :: after) ≠ [] := by
    rw [contentFrom_cons_of_visible (visible endsBlock_of_allBlank hend)]
    exact List.cons_ne_nil _ _
  obtain ⟨line, hline⟩ :
      ∃ line, (contentFrom (0 + before.length) (raw :: after)).getLast? = some line :=
    ⟨_, List.getLast?_eq_some_getLast hne⟩
  have hlast : line ∈ (content f.body).getLast? := by
    rw [content, ← contentFrom_eq_filter, hbody, contentFrom_append,
      List.getLast?_append_of_ne_nil _ hne]
    exact hline
  obtain ⟨last, hmem, htext⟩ := mem_contentFrom (List.mem_of_getLast? hline)
  refine ⟨last, hmem, ?_⟩
  rw [← htext]
  exact f.terminated line hlast

end FunctionText

/-- A function is one statement if no line of its body ends in `END`. Otherwise the statement ends
inside the body, and what is left of the function goes into the statements behind it. -/
theorem statements_functionText (f : FunctionText) (more : List (List Char)) :
    if f.body.any fun raw => endsBlock (stripComment raw) then
      ∃ before stop after t, f.body = before ++ stop :: after ∧
        statements (f.lines ++ more) =
          t :: (statements (after ++ f.closing :: more)).map
            (Taken.down (f.front ++ (before ++ [stop])).length) ∧
        t.mode = .atomicBody ∧ t.ReadFrom (content (f.front ++ (before ++ [stop])))
    else
      ∃ t, statements (f.lines ++ more) = t :: (statements more).map (Taken.down f.lines.length) ∧
        t.mode = .atomicBody ∧ t.ReadFrom (content f.lines) := by
  split
  · next hany =>
    obtain ⟨ended, hended⟩ :
        ∃ raw, f.body.find? (fun raw => endsBlock (stripComment raw)) = some raw :=
      Option.isSome_iff_exists.1 (by rwa [List.find?_isSome, ← List.any_eq_true])
    obtain ⟨hend, quiet, rest, hbody, hquiet⟩ := List.find?_eq_some_iff_append.1 hended
    obtain ⟨stop, hstop⟩ :
        ∃ raw, (ended :: rest).find? (fun raw => isTerminated (stripComment raw)) = some raw := by
      obtain ⟨last, hlast, hterminated⟩ := f.exists_isTerminated hbody hend
      exact Option.isSome_iff_exists.1 (List.find?_isSome.2 ⟨last, hlast, hterminated⟩)
    obtain ⟨hterminated, behind, after, hrest, hbehind⟩ := List.find?_eq_some_iff_append.1 hstop
    have hsplit : f.body = quiet ++ behind ++ stop :: after := by
      rw [hbody, hrest, List.append_assoc]
    have hfirst : ended ∈ behind ++ [stop] := by
      cases behind with
      | nil => exact List.mem_singleton.2 (List.cons.inj hrest).1
      | cons raw behind => exact (List.cons.inj hrest).1 ▸ List.mem_cons_self
    obtain ⟨t, ht⟩ := f.statements_upTo (by simpa using hquiet) (by simpa using hbehind)
      ⟨ended, hfirst, hend⟩ hterminated (after ++ f.closing :: more)
    refine ⟨quiet ++ behind, stop, after, t, hsplit, ?_⟩
    rw [FunctionText.lines, hsplit]
    simpa using ht
  · next hnone =>
    obtain ⟨t, ht⟩ := @FunctionText.statements_upTo f f.body [] f.closing (by simpa using hnone)
      (by simp) ⟨f.closing, List.mem_singleton_self _, f.ends⟩ f.closes more
    exact ⟨t, ht⟩

/-- The words of a text. -/
def words (text : List Char) : List (List Char) :=
  (text.map Casing.fold).splitOnP fun c => !isWord c

/-- How many blocks and `CASE` expressions are open behind some words, where `depth` were open
before; `none` if one more is closed than was opened. -/
def depth? (depth : Nat) : List (List Char) → Option Nat
  | [] => some depth
  | word :: rest =>
    if word = "begin".toList ∨ word = "case".toList then depth? (depth + 1) rest
    else if word = "end".toList then
      match depth with
      | 0 => none
      | depth + 1 => depth? depth rest
    else depth? depth rest

/-- Every block and every `CASE` expression that the body opens it closes too. -/
def FunctionText.Nested (f : FunctionText) : Prop :=
  depth? 0 (f.body.flatMap fun raw => words (stripComment raw)) = some 0

/-- A function with a block inside its body. -/
def nestedBlock : FunctionText where
  first := "CREATE FUNCTION F()".toList
  header := []
  opening := "BEGIN ATOMIC".toList
  body := ["BEGIN".toList, "SET X = 1;".toList, "END;".toList, "SET Y = 2;".toList]
  closing := "END;".toList
  declares := by decide +kernel
  goesOn := by decide +kernel
  bodiless := by decide +kernel
  begins := by decide +kernel
  alone := by decide +kernel
  terminated := by decide +kernel
  ends := by decide +kernel
  closes := by decide +kernel

/-- Not every function with properly nested blocks is one statement. -/
theorem nestedBlock_cut : ¬∀ (f : FunctionText) (more : List (List Char)), f.Nested →
    ∃ t, statements (f.lines ++ more) = t :: (statements more).map (Taken.down f.lines.length) ∧
      t.ReadFrom (content f.lines) := by
  intro h
  have hnested : nestedBlock.Nested := by
    unfold FunctionText.Nested
    decide +kernel
  obtain ⟨t, ht, -⟩ := h nestedBlock [] hnested
  have hthree : (statements (nestedBlock.lines ++ [])).length = 3 := by decide +kernel
  rw [ht] at hthree
  cases hthree

end SchemaTransfer.Dump
