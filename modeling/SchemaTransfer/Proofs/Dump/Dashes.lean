import SchemaTransfer.Dump.Comment
import SchemaTransfer.Proofs.Dump.Scan

/-!
# Lines without a comment

A line is kept as it is if it has no two hyphens next to each other outside a literal.
-/
namespace SchemaTransfer.Dump
open Unicode

/-- No two hyphens are next to each other. -/
def DashFree (cs : List Char) : Prop := ¬['-', '-'] <:+: cs

instance (cs : List Char) : Decidable (DashFree cs) := inferInstanceAs (Decidable (¬_))

theorem dashFree_of_not_mem {cs : List Char} (h : '-' ∉ cs) : DashFree cs :=
  fun hdashes => h (hdashes.mem List.mem_cons_self)

theorem DashFree.tail {c : Char} {cs : List Char} (h : DashFree (c :: cs)) : DashFree cs :=
  fun hdashes => h (hdashes.trans (List.suffix_cons c cs).isInfix)

theorem dashFree_cons {c : Char} {cs : List Char} (hc : c ≠ '-') (h : DashFree cs) :
    DashFree (c :: cs) := by
  intro hdashes
  rcases List.infix_cons_iff.1 hdashes with hprefix | hinfix
  · exact hc (List.cons_prefix_cons.1 hprefix).1.symm
  · exact h hinfix

/-- What has no hyphen may stand before such a text. -/
theorem DashFree.behind {cs : List Char} (h : DashFree cs) {a : List Char} (ha : '-' ∉ a) :
    DashFree (a ++ cs) := by
  induction a with
  | nil => exact h
  | cons c a ih =>
    obtain ⟨hc, ha⟩ := List.ne_and_not_mem_of_not_mem_cons ha
    exact dashFree_cons (Ne.symm hc) (ih ha)

/-- Texts without such hyphens have none together if another character stands between them. -/
theorem DashFree.append_cons {a cs : List Char} {c : Char} (ha : DashFree a) (hc : c ≠ '-')
    (h : DashFree cs) : DashFree (a ++ c :: cs) := by
  induction a with
  | nil => exact dashFree_cons hc h
  | cons d a ih =>
    intro hdashes
    rcases List.infix_cons_iff.1 hdashes with hprefix | hinfix
    · obtain ⟨rfl, hnext⟩ := List.cons_prefix_cons.1 hprefix
      cases a with
      | nil => exact hc (List.cons_prefix_cons.1 hnext).1.symm
      | cons e a =>
        obtain ⟨rfl, -⟩ := List.cons_prefix_cons.1 hnext
        exact ha ⟨[], a, rfl⟩
    · exact ih ha.tail hinfix

theorem DashFree.append {a cs : List Char} (ha : DashFree a) (h : '-' ∉ cs) :
    DashFree (a ++ cs) := by
  cases cs with
  | nil => rwa [List.append_nil]
  | cons c cs =>
    obtain ⟨hc, hcs⟩ := List.ne_and_not_mem_of_not_mem_cons h
    exact ha.append_cons (Ne.symm hc) (dashFree_of_not_mem hcs)

theorem beforeComment_cons {c : Char} {cs : List Char} (h : c = '-' → cs.head? ≠ some '-')
    (quoted : Bool) : beforeComment quoted (c :: cs) =
      c :: beforeComment (if c == '\'' then !quoted else quoted) cs := by
  by_cases hc : c = '-'
  · subst hc
    cases cs with
    | nil => rfl
    | cons d cs =>
      have hd : d ≠ '-' := fun hd => h rfl (by rw [hd]; rfl)
      rw [beforeComment.eq_def]
      split
      · next heq => cases heq
      · next heq =>
        cases heq
        exact absurd rfl hd
      · next heq =>
        cases heq
        rfl
  · rw [beforeComment.eq_def]
    split
    · next heq => cases heq
    · next heq =>
      cases heq
      exact absurd rfl hc
    · next heq =>
      cases heq
      rfl

theorem beforeComment_of_dashFree {cs : List Char} (h : DashFree cs) (quoted : Bool) :
    beforeComment quoted cs = cs := by
  induction cs generalizing quoted with
  | nil => rfl
  | cons c cs ih =>
    rw [beforeComment_cons _ quoted, ih h.tail]
    rintro rfl hhead
    cases cs with
    | nil => cases hhead
    | cons d cs =>
      cases hhead
      exact h ⟨[], cs, rfl⟩

/-- Up to the first quote. -/
theorem beforeComment_append_quote {a : List Char} (ha : DashFree a) (hquote : '\'' ∉ a)
    (quoted : Bool) (rest : List Char) :
    beforeComment quoted (a ++ '\'' :: rest) = a ++ '\'' :: beforeComment (!quoted) rest := by
  induction a with
  | nil => exact beforeComment_cons (fun h => by cases h) quoted
  | cons c a ih =>
    obtain ⟨hc, hquote⟩ := List.ne_and_not_mem_of_not_mem_cons hquote
    have hquoted : (c == '\'') = false := by simp [Ne.symm hc]
    rw [List.cons_append, beforeComment_cons _ quoted, hquoted]
    · exact congrArg (c :: ·) (ih ha.tail hquote)
    · rintro rfl hhead
      cases a with
      | nil => cases hhead
      | cons d a =>
        cases hhead
        exact ha ⟨[], a, rfl⟩

/-- Inside a literal hyphens are kept. -/
theorem beforeComment_quoted {c : Char} (hc : c ≠ '\'') (cs : List Char) :
    beforeComment true (c :: cs) = c :: beforeComment true cs := by
  have hdash (cs : List Char) : beforeComment true ('-' :: cs) = '-' :: beforeComment true cs := by
    induction cs with
    | nil => rfl
    | cons d cs ih =>
      by_cases hd : d = '-'
      · subst hd
        rw [ih]
        rfl
      · exact beforeComment_cons (fun _ => by simpa using hd) true
  by_cases h : c = '-'
  · subst h
    exact hdash cs
  · have hquoted : (c == '\'') = false := by simp [hc]
    rw [beforeComment_cons (fun hd => absurd hd h) true, hquoted]
    rfl

theorem withoutLineEnd_eq_self {line : List Char}
    (h : ∀ c ∈ line.getLast?, isReturnOrFeed c = false) : withoutLineEnd line = line :=
  List.rdropWhile_eq_self_iff.2 fun hne => by
    simp [h _ (List.getLast?_eq_some_getLast hne)]

theorem stripComment_eq_self {line : List Char} (hkept : beforeComment false line = line)
    (hend : ∀ c ∈ line.getLast?, isReturnOrFeed c = false) : stripComment line = line := by
  rw [stripComment, withoutLineEnd_eq_self hend, hkept]

end SchemaTransfer.Dump
