import SchemaTransfer.Proofs.Dump.Dashes

/-!
# The scan for a comment

A comment is looked for by going from one pair of hyphens to the next and counting the quotes before
each. A scan that goes over the line once, and only remembers whether it is inside a literal, finds
the same place: it is the first one outside literals where two hyphens stand.
-/
namespace SchemaTransfer.Dump

/-- Whether a scan is inside a literal behind one more character. -/
def toggle (inLiteral : Bool) (c : Char) : Bool :=
  if c = '\'' then !inLiteral else inLiteral

/-- What stands before the first two hyphens that a scan meets outside literals. -/
def commentScan (inLiteral : Bool) : List Char → Option (List Char)
  | [] => none
  | c :: cs =>
    if inLiteral = false ∧ ['-', '-'] <+: c :: cs then some []
    else (commentScan (toggle inLiteral c) cs).map (c :: ·)

/-- The search from one pair of hyphens to the next, `before` being what was passed already. -/
def commentSearch (before : List Char) : List Char → Option (List Char)
  | [] => none
  | '-' :: '-' :: cs =>
    if before.count '\'' % 2 = 0 then some before else commentSearch (before ++ ['-', '-']) cs
  | c :: cs => commentSearch (before ++ [c]) cs

/-- Two hyphens stand behind `front`, and a scan that starts as told is outside literals there. -/
structure OpensComment (inLiteral : Bool) (cs front : List Char) : Prop where
  hyphens : front ++ ['-', '-'] <+: cs
  outside : front.foldl toggle inLiteral = false

/-- No such place comes before that behind `front`. -/
structure OpensFirst (inLiteral : Bool) (cs front : List Char) : Prop where
  opens : OpensComment inLiteral cs front
  first : ∀ other, OpensComment inLiteral cs other → front <+: other

variable {inLiteral : Bool} {c : Char} {cs front : List Char}

theorem opensComment_nil :
    OpensComment inLiteral cs [] ↔ inLiteral = false ∧ ['-', '-'] <+: cs :=
  ⟨fun h => ⟨h.outside, h.hyphens⟩, fun h => ⟨h.2, h.1⟩⟩

theorem opensComment_cons {d : Char} :
    OpensComment inLiteral (c :: cs) (d :: front) ↔
      d = c ∧ OpensComment (toggle inLiteral d) cs front := by
  constructor
  · rintro ⟨hhyphens, houtside⟩
    obtain ⟨hd, hhyphens⟩ := List.cons_prefix_cons.1 hhyphens
    exact ⟨hd, hhyphens, houtside⟩
  · rintro ⟨hd, hhyphens, houtside⟩
    exact ⟨List.cons_prefix_cons.2 ⟨hd, hhyphens⟩, houtside⟩

theorem opensFirst_cons (h : ¬OpensComment inLiteral (c :: cs) []) :
    OpensFirst inLiteral (c :: cs) front ↔
      ∃ rest, OpensFirst (toggle inLiteral c) cs rest ∧ c :: rest = front := by
  constructor
  · rintro ⟨hopens, hfirst⟩
    cases front with
    | nil => exact absurd hopens h
    | cons d rest =>
      obtain ⟨rfl, hrest⟩ := opensComment_cons.1 hopens
      refine ⟨rest, ⟨hrest, fun other hother => ?_⟩, rfl⟩
      exact (List.cons_prefix_cons.1 (hfirst _ (opensComment_cons.2 ⟨rfl, hother⟩))).2
  · rintro ⟨rest, ⟨hopens, hfirst⟩, rfl⟩
    refine ⟨opensComment_cons.2 ⟨rfl, hopens⟩, fun other hother => ?_⟩
    cases other with
    | nil => exact absurd hother h
    | cons d other =>
      obtain ⟨rfl, hrest⟩ := opensComment_cons.1 hother
      exact List.cons_prefix_cons.2 ⟨rfl, hfirst other hrest⟩

theorem commentScan_eq_some_iff :
    commentScan inLiteral cs = some front ↔ OpensFirst inLiteral cs front := by
  induction cs generalizing inLiteral front with
  | nil =>
    refine iff_of_false (fun h => by cases h) fun h => ?_
    have hnil := List.prefix_nil.1 h.opens.hyphens
    simp at hnil
  | cons c cs ih =>
    rw [commentScan]
    split
    · next hopens =>
      have hopens := opensComment_nil.2 hopens
      rw [Option.some_inj]
      constructor
      · rintro rfl
        exact ⟨hopens, fun _ _ => List.nil_prefix⟩
      · exact fun h => (List.prefix_nil.1 (h.first [] hopens)).symm
    · next hopens =>
      rw [Option.map_eq_some_iff, opensFirst_cons (mt opensComment_nil.1 hopens)]
      simp only [ih]

theorem commentScan_cons (h : ¬(inLiteral = false ∧ ['-', '-'] <+: c :: cs)) :
    commentScan inLiteral (c :: cs) = (commentScan (toggle inLiteral c) cs).map (c :: ·) := by
  rw [commentScan, if_neg h]

/-- Inside a literal hyphens mean nothing to a scan. -/
theorem commentScan_pair (cs : List Char) :
    commentScan true ('-' :: '-' :: cs) = (commentScan true cs).map ('-' :: '-' :: ·) := by
  rw [commentScan_cons (by simp), toggle, if_neg (by decide), commentScan_cons (by simp), toggle,
    if_neg (by decide), Option.map_map]
  rfl

theorem toggle_odd (before : List Char) (c : Char) :
    toggle (before.count '\'' % 2 = 1) c = decide ((before ++ [c]).count '\'' % 2 = 1) := by
  rw [List.count_append, List.count_singleton, toggle]
  by_cases hc : c = '\''
  · rw [if_pos hc, if_pos (by simp [hc]), ← decide_not, decide_eq_decide]
    omega
  · rw [if_neg hc, if_neg (by simp [hc]), Nat.add_zero]

theorem odd_pair (before : List Char) :
    (before ++ ['-', '-']).count '\'' = before.count '\'' := by
  simp [List.count_append]

/-- The search knows by counting what the scan remembers. Where it passes over a pair of hyphens, it
is inside a literal, so that no other pair between the two would count. -/
theorem commentSearch_eq_scan (before cs : List Char) :
    commentSearch before cs =
      (commentScan (before.count '\'' % 2 = 1) cs).map (before ++ ·) := by
  fun_induction commentSearch before cs with
  | case1 before => rfl
  | case2 before cs heven =>
    have houtside : decide (before.count '\'' % 2 = 1) = false := decide_eq_false (by omega)
    rw [houtside, commentScan, if_pos ⟨rfl, cs, rfl⟩, Option.map_some, List.append_nil]
  | case3 before cs hodd ih =>
    have hinside : decide (before.count '\'' % 2 = 1) = true := decide_eq_true (by omega)
    rw [ih, odd_pair, hinside, commentScan_pair, Option.map_map]
    refine congrArg (Option.map · _) (funext fun rest => ?_)
    rw [Function.comp_apply, List.append_assoc]
    rfl
  | case4 before c cs hpair ih =>
    have hnone : ¬(decide (before.count '\'' % 2 = 1) = false ∧ ['-', '-'] <+: c :: cs) := by
      rintro ⟨-, rest, hrest⟩
      rw [List.cons_append, List.singleton_append, List.cons.injEq] at hrest
      exact hpair rest hrest.1.symm hrest.2.symm
    rw [ih, commentScan_cons hnone, toggle_odd, Option.map_map]
    refine congrArg (Option.map · _) (funext fun rest => ?_)
    rw [Function.comp_apply, List.append_assoc, List.singleton_append]

theorem beforeComment_eq_scan (quoted : Bool) (cs : List Char) :
    beforeComment quoted cs = (commentScan quoted cs).getD cs := by
  fun_induction beforeComment quoted cs with
  | case1 quoted => rfl
  | case2 cs ih =>
    rw [ih, commentScan_pair]
    cases commentScan true cs <;> rfl
  | case3 quoted cs hquoted =>
    rw [commentScan, if_pos ⟨by simpa using hquoted, cs, rfl⟩, Option.getD_some]
  | case4 quoted c cs hpair ih =>
    have hnone : ¬(quoted = false ∧ ['-', '-'] <+: c :: cs) := by
      rintro ⟨-, rest, hrest⟩
      rw [List.cons_append, List.singleton_append, List.cons.injEq] at hrest
      exact hpair rest hrest.1.symm hrest.2.symm
    have htoggle : (if (c == '\'') = true then !quoted else quoted) = toggle quoted c := by
      simp only [beq_iff_eq, toggle]
    rw [htoggle] at ih ⊢
    rw [ih, commentScan_cons hnone]
    cases commentScan (toggle quoted c) cs <;> rfl

/-- Of every line the returns and feeds at its end are dropped, and what is left is cut before the
first two hyphens that a scan meets outside literals, or not at all if it meets none. The search
from one pair of hyphens to the next comes to the same place. -/
theorem stripComment_eq_scan (line : List Char) :
    ∃ text ending, line = text ++ ending ∧ (∀ c ∈ ending, isReturnOrFeed c = true) ∧
      (∀ c ∈ text.getLast?, isReturnOrFeed c = false) ∧
      stripComment line = (commentScan false text).getD text ∧
      commentSearch [] text = commentScan false text ∧
      ∀ front, commentScan false text = some front ↔ OpensFirst false text front := by
  have hlast : ∀ c ∈ (withoutLineEnd line).getLast?, isReturnOrFeed c = false := by
    intro c hc
    obtain ⟨hne, rfl⟩ := List.mem_getLast?_eq_getLast hc
    exact Bool.not_eq_true _ ▸ List.rdropWhile_last_not isReturnOrFeed line hne
  refine ⟨withoutLineEnd line, line.rtakeWhile isReturnOrFeed,
    List.rdropWhile_append_rtakeWhile.symm, fun _ => List.mem_rtakeWhile_imp, hlast,
    beforeComment_eq_scan false _, ?_, fun front => commentScan_eq_some_iff⟩
  rw [commentSearch_eq_scan]
  exact congrFun Option.map_id _

/-- Hyphens in a literal are passed over, also three in a row. -/
example : stripComment "SET A = '--''---' ---- B".toList = "SET A = '--''---' ".toList := by decide

end SchemaTransfer.Dump
