import SchemaTransfer.Dump.Statement
import SchemaTransfer.Proofs.Blank

/-!
# Cutting a dump between statements

Where no statement is left open, a dump can be cut in two. Its statements are those of the first
part and, as many lines further down as the first part has, those of the second.
-/
namespace SchemaTransfer.Dump
open Unicode

variable {xs ys : List (List Char)}

/-- The statement that a line begins or goes on with. -/
def Begun.behind (current : Option Begun) (line : Line) : Begun :=
  match current with
  | none => .ofFirst line
  | some b => b.add line

/-- The statements that end in some lines, and the one that is left open behind them. -/
def cut : Option Begun → List Line → List Taken × Option Begun
  | current, [] => ([], current)
  | current, line :: rest =>
    let b := Begun.behind current line
    if b.progress.isClosed line.text then
      let (taken, left) := cut none rest
      (b.taken :: taken, left)
    else cut (some b) rest

theorem cut_cons_of_closed {current : Option Begun} {line : Line} (rest : List Line)
    (h : (Begun.behind current line).progress.isClosed line.text = true) :
    cut current (line :: rest) =
      ((Begun.behind current line).taken :: (cut none rest).1, (cut none rest).2) := by
  rw [cut]
  exact if_pos h

theorem cut_cons_of_open {current : Option Begun} {line : Line} (rest : List Line)
    (h : ¬(Begun.behind current line).progress.isClosed line.text = true) :
    cut current (line :: rest) = cut (some (Begun.behind current line)) rest := by
  rw [cut]
  exact if_neg h

theorem group_eq_cut (current : Option Begun) (lines : List Line) :
    group current lines =
      (cut current lines).1 ++ (cut current lines).2.toList.map Begun.taken := by
  induction lines generalizing current with
  | nil => cases current <;> rfl
  | cons line rest ih =>
    have hgroup : group current (line :: rest) =
        if (Begun.behind current line).progress.isClosed line.text then
          (Begun.behind current line).taken :: group none rest
        else group (some (Begun.behind current line)) rest := by
      cases current <;> rfl
    rw [hgroup]
    split
    · next h => rw [cut_cons_of_closed rest h, ih, List.cons_append]
    · next h => rw [cut_cons_of_open rest h, ih]

theorem cut_append (current : Option Begun) (lines more : List Line) :
    cut current (lines ++ more) =
      ((cut current lines).1 ++ (cut (cut current lines).2 more).1,
        (cut (cut current lines).2 more).2) := by
  induction lines generalizing current with
  | nil => rfl
  | cons line rest ih =>
    rw [List.cons_append]
    by_cases h : (Begun.behind current line).progress.isClosed line.text = true
    · rw [cut_cons_of_closed _ h, cut_cons_of_closed _ h, ih, List.cons_append]
    · rw [cut_cons_of_open _ h, cut_cons_of_open _ h, ih]

def Line.down (k : Nat) (l : Line) : Line := { l with number := l.number + k }

theorem Line.down_text (k : Nat) (l : Line) : (l.down k).text = l.text := rfl

def Statement.down (k : Nat) (s : Statement) : Statement := { s with number := s.number + k }

def Begun.down (k : Nat) (b : Begun) : Begun :=
  ⟨b.first.down k, b.rest.map (Line.down k), b.progress, b.bodyStart.map (· + k)⟩

/-- The same statement, `k` lines further down. -/
def Taken.down (k : Nat) (t : Taken) : Taken :=
  ⟨t.statement.down k, t.mode, t.bodyStart.map (· + k)⟩

theorem Taken.down_down (t : Taken) (j k : Nat) : (t.down j).down k = t.down (j + k) := by
  unfold Taken.down Statement.down
  simp only [Nat.add_assoc, Option.map_map, Function.comp_def]

theorem Begun.bodyStartAt_down (before after : Progress) (line : Line) (k : Nat) :
    bodyStartAt before after (line.down k) = (bodyStartAt before after line).map (· + k) := by
  unfold bodyStartAt
  split <;> rfl

theorem Begun.behind_down (current : Option Begun) (line : Line) (k : Nat) :
    behind (current.map (Begun.down k)) (line.down k) = (behind current line).down k := by
  cases current with
  | none =>
    simp only [behind, Option.map_none, ofFirst, Begun.down, List.map_nil, bodyStartAt_down,
      Line.down_text]
  | some b =>
    simp only [behind, Option.map_some, add, Begun.down, List.map_append, List.map_cons,
      List.map_nil, bodyStartAt_down, Line.down_text]
    cases b.bodyStart <;> rfl

theorem Begun.taken_down (b : Begun) (k : Nat) : (b.down k).taken = b.taken.down k := by
  unfold taken Begun.down Taken.down Statement.down
  cases b.rest with
  | nil => rfl
  | cons line rest =>
    simp only [List.map_cons, Statement.ofLines, List.map_map, Taken.mk.injEq, and_true,
      Statement.mk.injEq, Line.down, true_and]
    rfl

theorem cut_down (current : Option Begun) (lines : List Line) (k : Nat) :
    cut (current.map (Begun.down k)) (lines.map (Line.down k)) =
      ((cut current lines).1.map (Taken.down k), (cut current lines).2.map (Begun.down k)) := by
  induction lines generalizing current with
  | nil => rfl
  | cons line rest ih =>
    have hbehind := Begun.behind_down current line k
    rw [List.map_cons]
    by_cases h : (Begun.behind current line).progress.isClosed line.text = true
    · have hdown : (Begun.behind (current.map (Begun.down k)) (line.down k)).progress.isClosed
          (line.down k).text = true := by rw [hbehind]; exact h
      rw [cut_cons_of_closed _ h, cut_cons_of_closed _ hdown, hbehind, Begun.taken_down,
        List.map_cons]
      exact congrArg (fun r => (_ :: r.1, r.2)) (ih none)
    · have hdown : ¬(Begun.behind (current.map (Begun.down k)) (line.down k)).progress.isClosed
          (line.down k).text = true := by rw [hbehind]; exact h
      rw [cut_cons_of_open _ h, cut_cons_of_open _ hdown, hbehind]
      exact ih (some _)

theorem contentFrom_append (n : Nat) (xs ys : List (List Char)) :
    contentFrom n (xs ++ ys) = contentFrom n xs ++ contentFrom (n + xs.length) ys := by
  induction xs generalizing n with
  | nil => rfl
  | cons raw xs ih =>
    have hlength : n + 1 + xs.length = n + (raw :: xs).length := by
      rw [List.length_cons]
      omega
    rw [List.cons_append, contentFrom, contentFrom, ih, hlength]
    split <;> rfl

theorem contentFrom_down (n k : Nat) (xs : List (List Char)) :
    contentFrom (n + k) xs = (contentFrom n xs).map (Line.down k) := by
  induction xs generalizing n with
  | nil => rfl
  | cons raw xs ih =>
    rw [contentFrom, contentFrom, Nat.add_right_comm, ih]
    split <;> rfl

/-- No statement is left open behind some lines. -/
def Ends (lines : List (List Char)) : Prop := (cut none (contentFrom 0 lines)).2 = none

instance (lines : List (List Char)) : Decidable (Ends lines) := by
  unfold Ends
  infer_instance

theorem cut_contentFrom (n : Nat) (lines : List (List Char)) :
    cut none (contentFrom n lines) =
      ((cut none (contentFrom 0 lines)).1.map (Taken.down n),
        (cut none (contentFrom 0 lines)).2.map (Begun.down n)) := by
  rw [← Nat.zero_add n, contentFrom_down 0 n, Nat.zero_add]
  exact cut_down none _ n

theorem Ends.cut_append (h : Ends xs) (ys : List (List Char)) :
    cut none (contentFrom 0 (xs ++ ys)) =
      ((cut none (contentFrom 0 xs)).1 ++ (cut none (contentFrom xs.length ys)).1,
        (cut none (contentFrom xs.length ys)).2) := by
  have hopen : (cut none (contentFrom 0 xs)).2 = none := h
  rw [contentFrom_append, Dump.cut_append, hopen, Nat.zero_add]

theorem Ends.append (hx : Ends xs) (hy : Ends ys) : Ends (xs ++ ys) := by
  have hopen : (cut none (contentFrom 0 ys)).2 = none := hy
  unfold Ends
  rw [hx.cut_append, cut_contentFrom xs.length, hopen, Option.map_none]

theorem statements_append (h : Ends xs) (ys : List (List Char)) :
    statements (xs ++ ys) = statements xs ++ (statements ys).map (Taken.down xs.length) := by
  have hopen : (cut none (contentFrom 0 xs)).2 = none := h
  unfold statements
  rw [group_eq_cut, group_eq_cut, group_eq_cut, h.cut_append, cut_contentFrom xs.length, hopen]
  simp only [Option.toList_none, List.map_nil, List.append_nil, List.map_append, List.append_assoc]
  cases (cut none (contentFrom 0 ys)).2 with
  | none => rfl
  | some b => simp [Begun.taken_down]

/-- Where a reader is behind the lines of a statement. -/
def progressBehind : List (List Char) → Progress
  | [] => { inFunction := false }
  | first :: rest => (first :: rest).foldl Progress.next { inFunction := declaresFunction first }

/-- Lines that are read as they are and make one statement: no comment and no blank line is taken
out, none but the last ends in a semicolon, and no body of a function is left open. -/
structure Holds (lines : List (List Char)) : Prop where
  kept : ∀ line ∈ lines, stripComment line = line
  filled : ∀ line ∈ lines, allBlank line = false
  goesOn : ∀ line ∈ lines.dropLast, isTerminated line = false
  ends : ∀ line ∈ lines.getLast?, isTerminated line = true
  closed : (progressBehind lines).mode = .plain ∨ (progressBehind lines).seenEnd = true

/-- Lines with their numbers; `n` lines stand before them. -/
def numbered (n : Nat) : List (List Char) → List Line
  | [] => []
  | line :: rest => ⟨n + 1, line⟩ :: numbered (n + 1) rest

theorem numbered_text (n : Nat) (lines : List (List Char)) :
    (numbered n lines).map (·.text) = lines := by
  induction lines generalizing n with
  | nil => rfl
  | cons line rest ih => rw [numbered, List.map_cons, ih]

theorem contentFrom_eq_numbered {lines : List (List Char)}
    (hkept : ∀ line ∈ lines, stripComment line = line)
    (hfilled : ∀ line ∈ lines, allBlank line = false) (n : Nat) :
    contentFrom n lines = numbered n lines := by
  induction lines generalizing n with
  | nil => rfl
  | cons line rest ih =>
    rw [contentFrom, numbered, hkept line List.mem_cons_self,
      ih (fun l hl => hkept l (List.mem_cons_of_mem _ hl))
        fun l hl => hfilled l (List.mem_cons_of_mem _ hl)]
    exact if_neg (by simp [hfilled line List.mem_cons_self])

theorem Begun.foldl_add (b : Begun) (lines : List Line) :
    (lines.foldl add b).first = b.first ∧ (lines.foldl add b).rest = b.rest ++ lines ∧
      (lines.foldl add b).progress = (lines.map (·.text)).foldl Progress.next b.progress := by
  induction lines generalizing b with
  | nil => exact ⟨rfl, (List.append_nil _).symm, rfl⟩
  | cons line rest ih =>
    obtain ⟨hfirst, hrest, hprogress⟩ := ih (b.add line)
    refine ⟨hfirst, ?_, hprogress⟩
    rw [List.foldl_cons, hrest, add, List.append_assoc, List.singleton_append]

/-- Lines that do not end the statement leave it open. -/
theorem cut_goesOn {b : Begun} {lines : List Line}
    (h : ∀ line ∈ lines, isTerminated line.text = false) (more : List Line) :
    cut (some b) (lines ++ more) = cut (some (lines.foldl Begun.add b)) more := by
  induction lines generalizing b with
  | nil => rfl
  | cons line rest ih =>
    have hopen : ¬(Begun.behind (some b) line).progress.isClosed line.text = true := by
      simp [Progress.isClosed, h line List.mem_cons_self]
    rw [List.cons_append, cut_cons_of_open _ hopen]
    exact ih fun l hl => h l (List.mem_cons_of_mem _ hl)

theorem numbered_concat (n : Nat) (lines : List (List Char)) (last : List Char) :
    numbered n (lines ++ [last]) = numbered n lines ++ [⟨n + lines.length + 1, last⟩] := by
  induction lines generalizing n with
  | nil => rfl
  | cons line rest ih =>
    have hlength : n + 1 + rest.length = n + (line :: rest).length := by
      rw [List.length_cons]
      omega
    rw [List.cons_append, numbered, numbered, ih, hlength, List.cons_append]

theorem Holds.cut {first : List Char} {rest : List (List Char)} (h : Holds (first :: rest)) :
    cut none (contentFrom 0 (first :: rest)) =
      ([((numbered 1 rest).foldl Begun.add (.ofFirst ⟨1, first⟩)).taken], none) := by
  rw [contentFrom_eq_numbered h.kept h.filled, numbered]
  rcases List.eq_nil_or_concat rest with rfl | ⟨init, last, rfl⟩
  · refine cut_cons_of_closed [] ?_
    have hterminated : isTerminated first = true := h.ends first rfl
    have hclosed := h.closed
    simp only [progressBehind, List.foldl_cons, List.foldl_nil] at hclosed
    simp [Begun.behind, Begun.ofFirst, Progress.isClosed, hterminated, hclosed]
  · rw [List.concat_eq_append] at h ⊢
    have hlines : first :: (init ++ [last]) = (first :: init) ++ [last] := rfl
    have hgoesOn := h.goesOn
    have hends := h.ends
    rw [hlines, List.dropLast_concat] at hgoesOn
    rw [hlines, List.getLast?_concat] at hends
    have hinit : ∀ line ∈ numbered 1 init, isTerminated line.text = false := by
      intro line hline
      refine hgoesOn line.text (List.mem_cons_of_mem _ ?_)
      rw [← numbered_text 1 init]
      exact List.mem_map_of_mem hline
    have hopen : ¬(Begun.behind none ⟨1, first⟩).progress.isClosed first = true := by
      simp [Progress.isClosed, hgoesOn first List.mem_cons_self]
    rw [cut_cons_of_open _ hopen, Nat.zero_add, numbered_concat, cut_goesOn hinit,
      List.foldl_append]
    refine cut_cons_of_closed [] ?_
    have hprogress := (Begun.foldl_add (.ofFirst ⟨1, first⟩) (numbered 1 (init ++ [last]))).2.2
    rw [numbered_text, numbered_concat, List.foldl_append] at hprogress
    have hclosed := h.closed
    rw [progressBehind, List.foldl_cons] at hclosed
    dsimp only [Begun.behind]
    simp only [List.foldl_cons, List.foldl_nil] at hprogress
    rw [hprogress]
    simp only [Progress.isClosed, hends last rfl, Bool.true_and, Bool.or_eq_true,
      decide_eq_true_eq]
    exact hclosed

/-- A statement on lines of its own. -/
theorem Holds.statement {first : List Char} {rest : List (List Char)}
    (h : Holds (first :: rest)) : Ends (first :: rest) ∧ ∃ t, statements (first :: rest) = [t] ∧
      t.statement = .ofLines ⟨1, first⟩ (numbered 1 rest) := by
  obtain ⟨hfirst, hrest, -⟩ := Begun.foldl_add (.ofFirst ⟨1, first⟩) (numbered 1 rest)
  refine ⟨by rw [Ends, h.cut], _, by rw [statements, group_eq_cut, h.cut]; rfl, ?_⟩
  rw [Begun.taken, hfirst, hrest]
  rfl

/-- Lines with a semicolon behind the last. -/
def terminated : List (List Char) → List (List Char)
  | [] => []
  | [last] => [last ++ [';']]
  | line :: rest => line :: terminated rest

theorem isTerminated_concat (line : List Char) : isTerminated (line ++ [';']) = true := by
  rw [isTerminated, trimRight_eq_rdropWhile, List.rdropWhile_concat_neg _ _ _ (by decide),
    List.getLast?_concat]
  rfl

theorem withoutTerminator_concat (line : List Char) :
    withoutTerminator (line ++ [';']) = line := by
  rw [withoutTerminator, isTerminated_concat, if_pos rfl, trimRight_eq_rdropWhile,
    List.rdropWhile_concat_neg _ _ _ (by decide), List.dropLast_concat]

theorem terminated_concat (lines : List (List Char)) (last : List Char) :
    terminated (lines ++ [last]) = lines ++ [last ++ [';']] := by
  induction lines with
  | nil => rfl
  | cons line rest ih =>
    rw [List.cons_append, List.cons_append, ← ih]
    cases rest <;> rfl

theorem closing_concat (lines : List (List Char)) (last : List Char) :
    closing (lines ++ [last]) = lines ++ closing [last] := by
  induction lines with
  | nil => rfl
  | cons line rest ih =>
    rw [List.cons_append, List.cons_append, ← ih]
    cases rest <;> rfl

/-- A last line that holds only the semicolon is left out. -/
theorem closing_terminated_concat (lines : List (List Char)) (last : List Char) :
    closing (terminated (lines ++ [last])) = lines ++ if allBlank last then [] else [last] := by
  rw [terminated_concat, closing_concat, closing, withoutTerminator_concat]

theorem closing_terminated {lines : List (List Char)}
    (h : ∀ line ∈ lines.getLast?, allBlank line = false) : closing (terminated lines) = lines := by
  rcases List.eq_nil_or_concat lines with rfl | ⟨init, last, rfl⟩
  · rfl
  · rw [List.concat_eq_append] at h ⊢
    rw [closing_terminated_concat, if_neg (by simp [h last List.getLast?_concat])]

/-- What becomes of two or more lines with a semicolon behind the last. -/
theorem Holds.statement_of_terminated_cons {first : List Char} {rest : List (List Char)}
    (hne : rest ≠ []) (h : Holds (terminated (first :: rest))) :
    Ends (terminated (first :: rest)) ∧ ∃ t, statements (terminated (first :: rest)) = [t] ∧
      t.statement = ⟨first, closing (terminated rest), 1⟩ := by
  cases rest with
  | nil => exact absurd rfl hne
  | cons next rest =>
    obtain ⟨hends, t, ht, hstatement⟩ := Holds.statement h
    refine ⟨hends, t, ht, hstatement.trans ?_⟩
    cases hnext : terminated (next :: rest) with
    | nil => cases rest <;> cases hnext
    | cons l ls =>
      rw [numbered, Statement.ofLines, ← numbered, numbered_text]
      exact List.cons_ne_nil _ _

theorem Holds.statement_of_terminated {first : List Char} {rest : List (List Char)}
    (h : Holds (terminated (first :: rest)))
    (hlast : ∀ line ∈ rest.getLast?, allBlank line = false) :
    Ends (terminated (first :: rest)) ∧ ∃ t, statements (terminated (first :: rest)) = [t] ∧
      t.statement = ⟨first, rest, 1⟩ := by
  cases rest with
  | nil =>
    obtain ⟨hends, t, ht, hstatement⟩ := Holds.statement h
    refine ⟨hends, t, ht, hstatement.trans ?_⟩
    rw [numbered, Statement.ofLines, withoutTerminator_concat]
  | cons next rest =>
    obtain ⟨hends, t, ht, hstatement⟩ := h.statement_of_terminated_cons (List.cons_ne_nil next rest)
    rw [closing_terminated hlast] at hstatement
    exact ⟨hends, t, ht, hstatement⟩

end SchemaTransfer.Dump
