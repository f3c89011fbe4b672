import SchemaTransfer.Proofs.Segment

/-!
# Parentheses outside literals

Parentheses are read from left to right with the number of those that are open. A parenthesis inside
a single-quoted literal is not one of them.
-/
namespace SchemaTransfer

/-- The number of parentheses that are open behind a character, if it does not close one too
many. -/
def nest? (depth : Nat) (c : Char) : Option Nat :=
  if c = '(' then some (depth + 1)
  else if c = ')' then (if depth = 0 then none else some (depth - 1))
  else some depth

/-- The number of parentheses that are open behind a text. -/
def depthBehind? (depth : Nat) (cs : List Char) : Option Nat := cs.foldlM nest? depth

theorem depthBehind?_append (depth : Nat) (a b : List Char) :
    depthBehind? depth (a ++ b) = (depthBehind? depth a).bind fun d => depthBehind? d b :=
  List.foldlM_append

theorem depthBehind?_concat (depth : Nat) (a : List Char) (c : Char) :
    depthBehind? depth (a ++ [c]) = (depthBehind? depth a).bind fun d => nest? d c := by
  rw [depthBehind?_append]
  exact congrArg _ (funext fun d => bind_pure (nest? d c))

theorem nest?_succ {depth d : Nat} {c : Char} (h : nest? depth c = some d) :
    nest? (depth + 1) c = some (d + 1) := by
  grind [nest?]

/-- What can be read, can be read inside another pair of parentheses. -/
theorem depthBehind?_succ {depth d : Nat} {cs : List Char} (h : depthBehind? depth cs = some d) :
    depthBehind? (depth + 1) cs = some (d + 1) := by
  induction cs generalizing depth with
  | nil => exact congrArg _ (congrArg _ (Option.some.inj h))
  | cons c cs ih =>
    obtain ⟨e, he, hrest⟩ := Option.bind_eq_some_iff.1 h
    exact Option.bind_eq_some_iff.2 ⟨e + 1, nest?_succ he, ih hrest⟩

theorem closes_of_nest?_eq_none {depth : Nat} {c : Char} (h : nest? depth c = none) :
    c = ')' ∧ depth = 0 := by
  grind [nest?]

/-- A text that cannot be read closes a parenthesis too many somewhere. -/
theorem exists_of_depthBehind?_eq_none {cs : List Char} (h : depthBehind? 0 cs = none) :
    ∃ a b, cs = a ++ ')' :: b ∧ depthBehind? 0 a = some 0 := by
  induction cs using List.reverseRecOn with
  | nil => cases h
  | append_singleton cs c ih =>
    rw [depthBehind?_concat] at h
    cases hcs : depthBehind? 0 cs with
    | none =>
      obtain ⟨a, b, rfl, ha⟩ := ih hcs
      exact ⟨a, b ++ [c], by simp, ha⟩
    | some d =>
      rw [hcs, Option.bind_some] at h
      obtain ⟨rfl, rfl⟩ := closes_of_nest?_eq_none h
      exact ⟨cs, [], rfl, hcs⟩

namespace Segment

/-- The text outside literals, in one piece. -/
def outsideText (cs : List Char) : List Char := (outsides (split cs)).flatten

theorem outsideText_cons {c : Char} (hc : c ≠ '\'') (cs : List Char) :
    outsideText (c :: cs) = c :: outsideText cs := by
  obtain ⟨halternating, -, -⟩ := isSplit_split cs
  rw [outsideText, split_cons_of_not_quote hc, outsideText]
  generalize split cs = segments at halternating ⊢
  cases halternating <;> rfl

theorem Alternating.concat {segments : List Segment} (h : Alternating segments) {c : Char}
    (hc : c ≠ '\'') :
    ∃ more, Alternating more ∧ (outsides more).dropLast = (outsides segments).dropLast ∧
      join more = join segments ++ [c] ∧
      (outsides more).flatten = (outsides segments).flatten ++ [c] := by
  induction h with
  | @outside text quotes =>
    have hcount : (text ++ [c]).count '\'' = text.count '\'' := by
      rw [List.count_append, List.count_singleton, if_neg (by simpa using hc), Nat.add_zero]
    refine ⟨[.outside (text ++ [c])], .outside (hcount ▸ quotes), rfl, ?_, ?_⟩
    · simp [join, Segment.text]
    · simp [outsides]
  | @literal text body rest free pairs alternating ih =>
    obtain ⟨more, hmore, hdrop, hjoin, htext⟩ := ih
    refine ⟨.outside text :: .literal body :: more, .literal free pairs hmore, ?_, ?_, ?_⟩
    · show (text :: outsides more).dropLast = (text :: outsides rest).dropLast
      rw [List.dropLast_cons_of_ne_nil (outsides_ne_nil hmore),
        List.dropLast_cons_of_ne_nil (outsides_ne_nil alternating), hdrop]
    · simp [join_literal, hjoin]
    · show text ++ (outsides more).flatten = text ++ (outsides rest).flatten ++ [c]
      rw [htext, List.append_assoc]

theorem outsideText_concat {c : Char} (hc : c ≠ '\'') (cs : List Char) :
    outsideText (cs ++ [c]) = outsideText cs ++ [c] := by
  obtain ⟨halternating, hapart, hjoin⟩ := isSplit_split cs
  obtain ⟨more, hmore, hdrop, hjoin', htext⟩ := halternating.concat hc
  have hapart' : Apart more := by
    rw [Apart, between, ← List.tail_dropLast, hdrop, List.tail_dropLast]
    exact hapart
  have hsplit : split (cs ++ [c]) = more := isSplit_iff.1 ⟨hmore, hapart', by rw [hjoin', hjoin]⟩
  rw [outsideText, hsplit, htext, outsideText]

end Segment

open Segment

/-- Every parenthesis outside literals that is opened is closed, and none is closed before. -/
def Balanced (cs : List Char) : Prop := depthBehind? 0 (outsideText cs) = some 0

instance (cs : List Char) : Decidable (Balanced cs) :=
  inferInstanceAs (Decidable (depthBehind? 0 (outsideText cs) = some 0))

/-- A text between two parentheses of which the second one closes the first one. -/
structure Encloses (cs inner : List Char) : Prop where
  text : cs = '(' :: (inner ++ [')'])
  balanced : Balanced inner

/-- All parentheses of a text are closed at some place before its end. -/
def ClosesEarly (cs : List Char) : Prop :=
  ∃ a b, outsideText cs = a ++ b ∧ a ≠ [] ∧ b ≠ [] ∧ depthBehind? 0 a = some 0

theorem outsideText_wrap (inner : List Char) :
    outsideText ('(' :: (inner ++ [')'])) = '(' :: (outsideText inner ++ [')']) := by
  rw [outsideText_cons (by decide), outsideText_concat (by decide)]

theorem depthBehind?_open (cs : List Char) : depthBehind? 0 ('(' :: cs) = depthBehind? 1 cs := rfl

theorem Balanced.wrap {inner : List Char} (h : Balanced inner) :
    Balanced ('(' :: (inner ++ [')'])) := by
  have hinner : depthBehind? 1 (outsideText inner) = some 1 := depthBehind?_succ h
  rw [Balanced, outsideText_wrap, depthBehind?_open, depthBehind?_concat, hinner]
  rfl

/-- What is left without its first and its last parenthesis is balanced unless the first one is
closed by another one than the last. -/
theorem balanced_inner_iff {inner : List Char} (h : Balanced ('(' :: (inner ++ [')']))) :
    Balanced inner ↔ ¬ClosesEarly ('(' :: (inner ++ [')'])) := by
  constructor
  · rintro hinner ⟨a, b, hab, ha, hb, hdepth⟩
    -- Inside the pair the number of open parentheses is one more than without it.
    obtain ⟨c, a, rfl⟩ := List.exists_cons_of_ne_nil ha
    obtain ⟨b, d, rfl⟩ := (List.eq_nil_or_concat' b).resolve_left hb
    rw [outsideText_wrap, List.cons_append, ← List.append_assoc] at hab
    obtain ⟨rfl, htail⟩ := List.cons.inj hab
    obtain ⟨hinside, -⟩ := List.append_inj' htail rfl
    rw [Balanced, hinside, depthBehind?_append] at hinner
    obtain ⟨depth, hread, -⟩ := Option.bind_eq_some_iff.1 hinner
    rw [depthBehind?_open, depthBehind?_succ hread] at hdepth
    cases hdepth
  · intro hlate
    rw [Balanced, outsideText_wrap, depthBehind?_open, depthBehind?_concat] at h
    cases hinner : depthBehind? 0 (outsideText inner) with
    | none =>
      obtain ⟨a, b, hab, ha⟩ := exists_of_depthBehind?_eq_none hinner
      refine absurd ⟨'(' :: (a ++ [')']), b ++ [')'], ?_, List.cons_ne_nil _ _, by simp, ?_⟩ hlate
      · rw [outsideText_wrap, hab]
        simp
      · rw [depthBehind?_open, depthBehind?_concat, depthBehind?_succ ha]
        rfl
    | some depth =>
      rw [depthBehind?_succ hinner] at h
      rw [Balanced, hinner]
      exact h

end SchemaTransfer
