import SchemaTransfer.Proofs.Rewriting
import SchemaTransfer.Proofs.Target.Expression

/-!
# Rules that apply once

What the rules put in holds nothing that they look for, and no word of it reaches into the text
around. So a rule leaves nothing to be done for itself and makes no work for the others. They
neither make nor move a literal, which is why each piece of text outside literals can be adapted on
its own.
-/
namespace SchemaTransfer.Expression
open Unicode Scan Segment Replace

variable {p : List Char → Option (List Char)} {new : List Char} {c : Char} {cs out : List Char}

/-- Two words that are read behind a kept character were there before. -/
theorem twoWords_of_rewrites (hframed : Framed p new) {first second : String}
    (hfirst : isPlainWord first = true) (hsecond : isPlainWord second = true)
    (hnew : ∀ out, keyword? second (new ++ out) = none)
    (hrewrites : Rewrites p new (isWord c) cs out)
    (hnone : twoWords first second (c :: cs) = none) : twoWords first second (c :: out) = none := by
  refine Option.eq_none_iff_forall_ne_some.2 fun left hread => ?_
  simp only [twoWords, Option.bind_eq_bind, Option.bind_eq_some_iff] at hread
  obtain ⟨out₁, hread₁, out₂, hread₂, out₃, hread₃, hend⟩ := hread
  obtain ⟨cs₁, hcs₁, hrewrites₁⟩ := hrewrites.keyword? hfirst hread₁
  obtain ⟨cs₂, hcs₂, hrewrites₂⟩ := hrewrites₁.blanks? hframed hread₂
  obtain ⟨cs₃, hcs₃, hrewrites₃⟩ := hrewrites₂.keyword?_of_new hsecond hnew hread₃
  have hends : (if wordEnds cs₃ then some cs₃ else none) = none := by
    simpa only [twoWords, Option.bind_eq_bind, hcs₁, hcs₂, hcs₃, Option.bind_some] using hnone
  rw [hrewrites₃.wordEnds] at hend
  split at hend
  · next hword =>
    rw [if_pos hword] at hends
    cases hends
  · cases hend

/-- So was a name with a parenthesis. -/
theorem call_of_rewrites (hframed : Framed p new) {name : String} (hname : isPlainWord name = true)
    (hnew : ∀ out, literal? "(" (new ++ out) = none)
    (hrewrites : Rewrites p new (isWord c) cs out) (hnone : call name (c :: cs) = none) :
    call name (c :: out) = none := by
  refine Option.eq_none_iff_forall_ne_some.2 fun left hread => ?_
  simp only [call, Option.bind_eq_bind, Option.bind_eq_some_iff] at hread
  obtain ⟨out₁, hread₁, hread₂⟩ := hread
  obtain ⟨cs₁, hcs₁, hrewrites₁⟩ := hrewrites.keyword? hname hread₁
  obtain ⟨inWord', -, hrewrites₂⟩ := hrewrites₁.trimLeft hframed
  have hparenthesis : literal? "(" (trimLeft cs₁) = none := by
    simpa only [call, Option.bind_eq_bind, hcs₁, Option.bind_some] using hnone
  generalize trimLeft cs₁ = cs₂ at hrewrites₂ hparenthesis
  generalize trimLeft out₁ = out₂ at hrewrites₂ hread₂
  cases hrewrites₂ with
  | nil => cases hread₂
  | @keep _ d cs out free rest =>
    obtain ⟨rfl, rfl⟩ : '(' = d ∧ left = out := List.cons.inj (literal?_eq_some.1 hread₂)
    cases hparenthesis
  | replace found rest =>
    rw [hnew] at hread₂
    cases hread₂

theorem framed_twoWords {first second new : String} (hfirst : isPlainWord first = true)
    (hsecond : isPlainWord second = true)
    (hnew : ∃ c rest, new.toList = c :: rest ∧ isWord c = true)
    (hend : inWordBehind false new.toList = true) :
    Framed (twoWords first second) new.toList where
  head := hnew
  used {cs rest} h := by
    simp only [twoWords, Option.bind_eq_bind, Option.bind_eq_some_iff] at h
    obtain ⟨cs₁, hread₁, cs₂, hread₂, cs₃, hread₃, hends⟩ := h
    obtain rfl : cs₃ = rest := by
      split at hends
      · exact Option.some.inj hends
      · cases hends
    obtain ⟨c, used₁, rfl, hc, -⟩ := keyword?_used hfirst hread₁
    obtain ⟨used₂, rfl, -⟩ := passes_blanks? hread₂
    obtain ⟨d, used₃, rfl, -, hword⟩ := keyword?_used hsecond hread₃
    refine ⟨c, used₁ ++ (used₂ ++ (d :: used₃)), by simp, hc, ?_⟩
    rw [hend, ← List.cons_append, inWordBehind_append, inWordBehind_append, hword]

theorem framed_call {name new : String} (hname : isPlainWord name = true)
    (hnew : ∃ c rest, new.toList = c :: rest ∧ isWord c = true)
    (hend : inWordBehind false new.toList = false) : Framed (call name) new.toList where
  head := hnew
  used {cs rest} h := by
    simp only [call, Option.bind_eq_bind, Option.bind_eq_some_iff] at h
    obtain ⟨cs₁, hread₁, hread₂⟩ := h
    obtain ⟨c, used₁, rfl, hc, -⟩ := keyword?_used hname hread₁
    obtain ⟨used₂, hused₂, -⟩ := passes_trimLeft cs₁
    have hrest : "(".toList ++ rest = trimLeft cs₁ := literal?_eq_some.1 hread₂
    have hparenthesis : isWord '(' = false := by decide
    refine ⟨c, used₁ ++ (used₂ ++ ['(']), ?_, hc, ?_⟩
    · rw [hused₂, ← hrest]
      simp
    · rw [hend, ← List.cons_append, inWordBehind_append, inWordBehind_append]
      exact hparenthesis

theorem framed_of_mem {r : Rule} (h : r ∈ rules) : Framed r.pattern r.new.toList := by
  simp only [rules, List.mem_cons, List.not_mem_nil, or_false] at h
  rcases h with rfl | rfl | rfl | rfl | rfl | rfl
  · exact framed_twoWords (by decide) (by decide) ⟨_, _, rfl, by decide⟩ (by decide)
  · exact framed_twoWords (by decide) (by decide) ⟨_, _, rfl, by decide⟩ (by decide)
  all_goals exact framed_call (by decide) ⟨_, _, rfl, by decide⟩ (by decide)

/-- What is put in, from the start of a word on. -/
def newWords : List String :=
  ["current_date", "current_timestamp", "extract (YEAR FROM ", "(YEAR FROM ", "YEAR FROM ", "FROM ",
    "upper(", "(", "lower(", "to_char("]

theorem wordStarts_new : ∀ r ∈ rules, ∀ n ∈ wordStarts false r.new.toList,
    n ∈ newWords.map String.toList := by
  decide +kernel

/-- No rule finds anything that begins in what a rule puts in. -/
theorem pattern_new {s : Rule} (hs : s ∈ rules) {w : String} (hw : w ∈ newWords) (out : List Char) :
    s.pattern (w.toList ++ out) = none := by
  simp only [rules, newWords, List.mem_cons, List.not_mem_nil, or_false] at hs hw
  rcases hs with rfl | rfl | rfl | rfl | rfl | rfl <;>
    rcases hw with rfl | rfl | rfl | rfl | rfl | rfl | rfl | rfl | rfl | rfl <;>
    rfl

/-- Nor does it end there: what is put in begins otherwise than what a rule reads behind its first
word. -/
theorem reads_of_mem {r s : Rule} (hr : r ∈ rules) (hs : s ∈ rules) {c : Char} {cs out : List Char}
    (hrewrites : Rewrites r.pattern r.new.toList (isWord c) cs out)
    (hnone : s.pattern (c :: cs) = none) : s.pattern (c :: out) = none := by
  have hframed := framed_of_mem hr
  have hnew : (∀ out, keyword? "date" (r.new.toList ++ out) = none) ∧
      (∀ out, keyword? "timestamp" (r.new.toList ++ out) = none) ∧
      ∀ out, literal? "(" (r.new.toList ++ out) = none := by
    simp only [rules, List.mem_cons, List.not_mem_nil, or_false] at hr
    rcases hr with rfl | rfl | rfl | rfl | rfl | rfl <;>
      exact ⟨fun _ => rfl, fun _ => rfl, fun _ => rfl⟩
  obtain ⟨hdate, htimestamp, hparenthesis⟩ := hnew
  simp only [rules, List.mem_cons, List.not_mem_nil, or_false] at hs
  rcases hs with rfl | rfl | rfl | rfl | rfl | rfl
  · exact twoWords_of_rewrites hframed (by decide) (by decide) hdate hrewrites hnone
  · exact twoWords_of_rewrites hframed (by decide) (by decide) htimestamp hrewrites hnone
  all_goals exact call_of_rewrites hframed (by decide) hparenthesis hrewrites hnone

/-- A rule leaves nothing to be done for itself, and makes no work for another one. -/
theorem settled_apply {r s : Rule} (hr : r ∈ rules) (hs : s ∈ rules) {cs : List Char}
    (h : s = r ∨ Settled s.pattern false cs) : Settled s.pattern false (r.apply cs) := by
  have hframed := framed_of_mem hr
  refine (rewrites_words hframed.consumes cs).settled hframed (fun n hn out => ?_)
    (fun hrewrites => reads_of_mem hr hs hrewrites) (h.imp_left (congrArg Rule.pattern))
  obtain ⟨w, hw, rfl⟩ := List.mem_map.1 (wordStarts_new r hr n hn)
  exact pattern_new hs hw out

/-- What the rules make of a text, one after the other. -/
def applyEach (rs : List Rule) (text : List Char) : List Char :=
  rs.foldl (fun text r => r.apply text) text

theorem settled_applyEach {rs : List Rule} (hrs : rs ⊆ rules) {s : Rule} (hs : s ∈ rules)
    {text : List Char} (h : s ∈ rs ∨ Settled s.pattern false text) :
    Settled s.pattern false (applyEach rs text) := by
  induction rs generalizing text with
  | nil => exact h.resolve_left List.not_mem_nil
  | cons r rs ih =>
    obtain ⟨hr, hrs⟩ := List.cons_subset.1 hrs
    show Settled s.pattern false (applyEach rs (r.apply text))
    refine ih hrs ?_
    rcases h with h | h
    · exact (List.mem_cons.1 h).symm.imp_right fun h => settled_apply hr hs (.inl h)
    · exact .inr (settled_apply hr hs (.inr h))

theorem applyEach_of_settled {rs : List Rule} {text : List Char}
    (h : ∀ r ∈ rs, Settled r.pattern false text) : applyEach rs text = text := by
  induction rs with
  | nil => rfl
  | cons r rs ih =>
    obtain ⟨hr, hrs⟩ := List.forall_mem_cons.1 h
    have hsame : r.apply text = text := allFrom_of_settled hr
    exact (congrArg (applyEach rs) hsame).trans (ih hrs)

theorem applyEach_applyEach (text : List Char) :
    applyEach rules (applyEach rules text) = applyEach rules text :=
  applyEach_of_settled fun _ hs =>
    settled_applyEach (List.Subset.refl rules) hs (.inl hs)

/-- The rules change the text outside literals piece by piece. -/
theorem split_foldl_outsideLiterals {rs : List Rule} (hrs : rs ⊆ rules) (cs : List Char) :
    split (rs.foldl (fun cs r => outsideLiterals r.apply cs) cs) =
      (split cs).map (mapOutside (applyEach rs)) := by
  induction rs generalizing cs with
  | nil =>
    have hid : mapOutside (applyEach []) = id := by
      funext segment
      cases segment <;> rfl
    rw [hid, List.map_id]
    rfl
  | cons r rs ih =>
    obtain ⟨hr, hrs⟩ := List.cons_subset.1 hrs
    have hsound := sound_of_mem hr
    rw [List.foldl_cons, ih hrs,
      split_outsideLiterals hsound.keepsQuotes (fun _ => hsound.apply_eq_nil), List.map_map,
      mapOutside_comp]
    rfl

/-- The rules act on each piece of text outside the literals on its own: the literals of a text,
and their places between the pieces, are those that it had, whether or not a quote is left open.
Another time they change nothing. -/
theorem applyRules_local (cs : List Char) :
    IsSplit cs (split cs) ∧
    split (applyRules cs) = (split cs).map (mapOutside (applyEach rules)) ∧
    applyRules cs = join ((split cs).map (mapOutside (applyEach rules))) ∧
    applyRules (applyRules cs) = applyRules cs := by
  have hsplit (cs : List Char) :
      split (applyRules cs) = (split cs).map (mapOutside (applyEach rules)) :=
    split_foldl_outsideLiterals (List.Subset.refl rules) cs
  have hjoin (cs : List Char) :
      applyRules cs = join ((split cs).map (mapOutside (applyEach rules))) := by
    rw [← hsplit, (isSplit_split (applyRules cs)).join]
  refine ⟨isSplit_split cs, hsplit cs, hjoin cs, ?_⟩
  have htwice : applyEach rules ∘ applyEach rules = applyEach rules :=
    funext applyEach_applyEach
  rw [hjoin (applyRules cs), hsplit, List.map_map, mapOutside_comp, htwice, ← hjoin]

/-- A quote that is left open belongs to the text outside. -/
example : applyRules "YEAR(d) || 'year(d)' || 'x''UCASE(b".toList =
    "extract (YEAR FROM d) || 'year(d)' || 'x''upper(b".toList := by
  decide +kernel

end SchemaTransfer.Expression
