import SchemaTransfer.Text.Segment
import Mathlib.Data.List.Infix

/-!
# Splitting and joining

Splitting is the inverse of joining on segments that stand apart: quotes inside a literal come in
pairs, the text outside has no quote but for one that may be left dangling at the end, and no two
literals touch. What changes a text piece by piece between its quotes changes its segments one by
one, and its literals stay the same literals as long as none is changed and none come to touch.
-/
namespace SchemaTransfer
namespace Segment

/-- Whether the quotes of a text come in pairs of neighbours. -/
def paired : List Char → Bool
  | [] => true
  | '\'' :: '\'' :: cs => paired cs
  | '\'' :: _ => false
  | _ :: cs => paired cs

theorem body?_eq_none {cs : List Char} : body? cs = none ↔ '\'' ∉ cs := by
  fun_induction body? cs with
  | case1 => simp
  | case2 cs b r hb ih => simp
  | case3 cs hb ih => simp
  | case4 cs h => simp
  | case5 c cs h hc ih => simp [ih, Ne.symm hc]

/-- What may follow the quote that closes a literal: no quote, or one that opens no literal. -/
def Behind (rest : List Char) : Prop := ∀ cs, rest = '\'' :: cs → '\'' ∉ cs

theorem body?_cons {c : Char} (hc : c ≠ '\'') (cs : List Char) :
    body? (c :: cs) = (body? cs).map fun r => (c :: r.1, r.2) :=
  body?.eq_4 c cs (fun _ h _ => hc h) hc

theorem paired_cons {c : Char} (hc : c ≠ '\'') (cs : List Char) : paired (c :: cs) = paired cs :=
  paired.eq_4 c cs (fun _ h _ => hc h) hc

theorem body?_append {body rest : List Char} (hbody : paired body = true) (hrest : Behind rest) :
    body? (body ++ '\'' :: rest) = some (body, rest) := by
  fun_induction paired body with
  | case1 =>
    rw [List.nil_append]
    cases rest with
    | nil => rfl
    | cons c cs =>
      by_cases hc : c = '\''
      · subst hc
        have hnone : body? cs = none := body?_eq_none.2 (hrest cs rfl)
        simp [body?, hnone]
      · simp [body?, hc]
  | case2 cs ih => simp [body?, ih hbody]
  | case3 cs h => cases hbody
  | case4 c cs h hc ih =>
    rw [List.cons_append, body?_cons hc, ih hbody]
    rfl

theorem paired_of_body? {cs body rest : List Char} (h : body? cs = some (body, rest)) :
    paired body = true ∧ Behind rest := by
  fun_induction body? cs generalizing body rest with
  | case1 => cases h
  | case2 cs b r hb ih =>
    obtain ⟨hpaired, hrest⟩ := ih hb
    cases h
    exact ⟨hpaired, hrest⟩
  | case3 cs hb ih =>
    cases h
    refine ⟨rfl, fun more hmore => ?_⟩
    cases hmore
    exact body?_eq_none.1 hb
  | case4 cs hcs =>
    cases h
    exact ⟨rfl, fun more hmore => absurd hmore (hcs more)⟩
  | case5 c cs _ hc ih =>
    obtain ⟨⟨b, r⟩, hb, he⟩ := Option.map_eq_some_iff.1 h
    cases he
    obtain ⟨hpaired, hrest⟩ := ih hb
    exact ⟨(paired_cons hc b).trans hpaired, hrest⟩

theorem paired_append {a : List Char} (h : '\'' ∉ a) (cs : List Char) :
    paired (a ++ cs) = paired cs := by
  induction a with
  | nil => rfl
  | cons c a ih =>
    obtain ⟨hc, ha⟩ := List.ne_and_not_mem_of_not_mem_cons h
    rw [List.cons_append, paired_cons (Ne.symm hc), ih ha]

theorem exists_pair {body : List Char} (h : paired body = true) (hmem : '\'' ∈ body) :
    ∃ a b, body = a ++ '\'' :: '\'' :: b ∧ '\'' ∉ a ∧ paired b = true := by
  fun_induction paired body with
  | case1 => cases hmem
  | case2 cs ih => exact ⟨[], cs, rfl, List.not_mem_nil, h⟩
  | case3 cs hcs => cases h
  | case4 c cs _ hc ih =>
    obtain ⟨a, b, rfl, ha, hb⟩ := ih h ((List.mem_cons.1 hmem).resolve_left fun heq => hc heq.symm)
    exact ⟨c :: a, b, rfl, List.not_mem_cons_of_ne_of_not_mem (fun heq => hc heq.symm) ha, hb⟩

theorem paired_pair {a b : List Char} (ha : paired a = true) (hb : paired b = true) :
    paired (a ++ '\'' :: '\'' :: b) = true := by
  fun_induction paired a with
  | case1 => exact hb
  | case2 cs ih => exact ih ha
  | case3 cs hcs => cases ha
  | case4 c cs _ hc ih => exact (paired_cons hc _).trans (ih ha)

/-- An outside text first and last, and a literal between any two of them. -/
inductive Alternating : List Segment → Prop
  | outside {text : List Char} (quotes : text.count '\'' ≤ 1) : Alternating [.outside text]
  | literal {text body : List Char} {rest : List Segment} (free : '\'' ∉ text)
      (pairs : paired body = true) (alternating : Alternating rest) :
      Alternating (.outside text :: .literal body :: rest)

/-- The text outside literals, piece by piece. -/
def outsides (segments : List Segment) : List (List Char) :=
  segments.filterMap fun | .outside text => some text | .literal _ => none

/-- The bodies of the literals. -/
def bodies (segments : List Segment) : List (List Char) :=
  segments.filterMap fun | .outside _ => none | .literal body => some body

/-- The texts that stand between two literals. -/
def between (segments : List Segment) : List (List Char) := (outsides segments).tail.dropLast

/-- No two literals touch. -/
def Apart (segments : List Segment) : Prop := [] ∉ between segments

theorem outsides_ne_nil {segments : List Segment} (h : Alternating segments) :
    outsides segments ≠ [] := by
  cases h <;> exact List.cons_ne_nil _ _

theorem between_literal {text body text' body' : List Char} {rest : List Segment}
    (h : Alternating rest) :
    between (.outside text :: .literal body :: .outside text' :: .literal body' :: rest) =
      text' :: between (.outside text' :: .literal body' :: rest) := by
  show (text' :: outsides rest).dropLast = text' :: (outsides rest).dropLast
  rw [List.dropLast_cons_of_ne_nil (outsides_ne_nil h)]

/-- Behind a literal there is the end of a text, or another literal that does not touch it. -/
theorem behind_join {text body : List Char} {rest : List Segment} (h : Alternating rest)
    (hapart : Apart (.outside text :: .literal body :: rest)) :
    Behind (join rest) ∧ Apart rest := by
  cases h with
  | @outside last quotes =>
    refine ⟨fun cs hcs => ?_, List.not_mem_nil⟩
    have hlast : last = '\'' :: cs := by simpa [join, Segment.text] using hcs
    rw [hlast, List.count_cons_self] at quotes
    exact List.count_eq_zero.1 (by omega)
  | @literal text' body' rest' free pairs alternating =>
    rw [Apart, between_literal alternating, List.mem_cons, not_or] at hapart
    refine ⟨fun cs hcs => ?_, hapart.2⟩
    cases text' with
    | nil => exact absurd rfl hapart.1
    | cons c text' =>
      obtain ⟨rfl, -⟩ := List.cons.inj (show c :: _ = _ from hcs)
      exact absurd List.mem_cons_self free

theorem split_cons_of_not_quote {c : Char} (hc : c ≠ '\'') (cs : List Char) :
    split (c :: cs) = push c (split cs) := by
  simp [split, splitFrom, hc]

theorem split_append {text : List Char} (h : '\'' ∉ text) {cs t : List Char} {rest : List Segment}
    (hcs : split cs = .outside t :: rest) : split (text ++ cs) = .outside (text ++ t) :: rest := by
  induction text with
  | nil => exact hcs
  | cons c text ih =>
    obtain ⟨hc, htext⟩ := List.ne_and_not_mem_of_not_mem_cons h
    rw [List.cons_append, split_cons_of_not_quote (Ne.symm hc), ih htext]
    rfl

theorem split_free {text : List Char} (h : '\'' ∉ text) : split text = [.outside text] := by
  have hsplit : split (text ++ []) = [.outside (text ++ [])] := split_append h rfl
  rwa [List.append_nil] at hsplit

theorem split_dangling {text : List Char} (h : '\'' ∉ text) :
    split ('\'' :: text) = [.outside ('\'' :: text)] := by
  have hnone : body? text = none := body?_eq_none.2 h
  have hsplit : split ('\'' :: text) = push '\'' (split text) := by
    simp [split, splitFrom, hnone]
  rw [hsplit, split_free h]
  rfl

theorem exists_dangling {text : List Char} (h : '\'' ∈ text) (hquotes : text.count '\'' ≤ 1) :
    ∃ a b, text = a ++ '\'' :: b ∧ '\'' ∉ a ∧ '\'' ∉ b := by
  obtain ⟨a, b, rfl⟩ := List.append_of_mem h
  rw [List.count_append, List.count_cons_self] at hquotes
  exact ⟨a, b, rfl, List.count_eq_zero.1 (by omega), List.count_eq_zero.1 (by omega)⟩

theorem split_outside {text : List Char} (hquotes : text.count '\'' ≤ 1) :
    split text = [.outside text] := by
  by_cases h : '\'' ∈ text
  · obtain ⟨a, b, rfl, ha, hb⟩ := exists_dangling h hquotes
    exact split_append ha (split_dangling hb)
  · exact split_free h

theorem join_literal (text body : List Char) (rest : List Segment) :
    join (.outside text :: .literal body :: rest) =
      text ++ '\'' :: (body ++ '\'' :: join rest) := by
  simp [join, Segment.text]

theorem split_join {segments : List Segment} (h : Alternating segments) (hapart : Apart segments) :
    split (join segments) = segments := by
  induction h with
  | @outside text quotes => simpa [join, Segment.text] using split_outside quotes
  | @literal text body rest free pairs alternating ih =>
    obtain ⟨hbehind, hrest⟩ := behind_join alternating hapart
    have hquote := split_quote (body?_append pairs hbehind)
    rw [join_literal, split_append free hquote, ih hrest, List.append_nil]

/-- Segments as splitting a text gives them. -/
structure IsSplit (cs : List Char) (segments : List Segment) : Prop where
  alternating : Alternating segments
  apart : Apart segments
  join : join segments = cs

theorem IsSplit.push {cs : List Char} {segments : List Segment} (h : IsSplit cs segments)
    {c : Char} (hc : c ≠ '\'') : IsSplit (c :: cs) (push c segments) := by
  obtain ⟨halternating, hapart, rfl⟩ := h
  cases halternating with
  | @outside text quotes =>
    exact ⟨.outside (by rwa [List.count_cons_of_ne hc]), List.not_mem_nil, rfl⟩
  | @literal text body rest free pairs alternating =>
    exact ⟨.literal (List.not_mem_cons_of_ne_of_not_mem (Ne.symm hc) free) pairs alternating,
      hapart, rfl⟩

theorem IsSplit.quote {cs body rest : List Char} {segments : List Segment}
    (h : IsSplit rest segments) (hbody : body? cs = some (body, rest)) :
    IsSplit ('\'' :: cs) (.outside [] :: .literal body :: segments) := by
  obtain ⟨halternating, hapart, rfl⟩ := h
  obtain ⟨hpaired, hbehind⟩ := paired_of_body? hbody
  refine ⟨.literal List.not_mem_nil hpaired halternating, ?_, ?_⟩
  · cases halternating with
    | outside quotes => exact List.not_mem_nil
    | @literal text body' rest free pairs alternating =>
      rw [Apart, between_literal alternating, List.mem_cons, not_or]
      refine ⟨fun htext => ?_, hapart⟩
      subst htext
      rw [join_literal, List.nil_append] at hbehind
      exact hbehind _ rfl (by simp)
  · rw [join_literal, List.nil_append, ← eq_append_of_body? hbody]

theorem isSplit_split (cs : List Char) : IsSplit cs (split cs) := by
  induction hn : cs.length using Nat.strongRecOn generalizing cs with
  | ind n ih =>
    cases cs with
    | nil => exact ⟨.outside (Nat.zero_le _), List.not_mem_nil, rfl⟩
    | cons c cs =>
      by_cases hc : c = '\''
      · subst hc
        cases hbody : body? cs with
        | none =>
          have hfree : '\'' ∉ cs := body?_eq_none.1 hbody
          rw [split_dangling hfree]
          refine ⟨.outside ?_, List.not_mem_nil, by simp [join, Segment.text]⟩
          rw [List.count_cons_self, List.count_eq_zero.2 hfree]
        | some r =>
          have hlength := congrArg List.length (eq_append_of_body? hbody)
          rw [List.length_append, List.length_cons] at hlength
          rw [split_quote hbody]
          exact (ih r.2.length (by rw [← hn, List.length_cons]; omega) r.2 rfl).quote hbody
      · rw [split_cons_of_not_quote hc]
        exact (ih cs.length (by rw [← hn, List.length_cons]; omega) cs rfl).push hc

/-- Splitting finds the one way in which a text is made up of segments that stand apart. -/
theorem isSplit_iff {cs : List Char} {segments : List Segment} :
    IsSplit cs segments ↔ split cs = segments :=
  ⟨fun h => h.join ▸ split_join h.alternating h.apart, fun h => h ▸ isSplit_split cs⟩

/-- A text is changed piece by piece between its quotes. -/
structure KeepsQuotes (f : List Char → List Char) : Prop where
  quote (a b : List Char) : f (a ++ '\'' :: b) = f a ++ '\'' :: f b
  free {a : List Char} (h : '\'' ∉ a) : '\'' ∉ f a
  nil : f [] = []

namespace KeepsQuotes

variable {f : List Char → List Char}

theorem count (hf : KeepsQuotes f) {text : List Char} (h : text.count '\'' ≤ 1) :
    (f text).count '\'' ≤ 1 := by
  by_cases hmem : '\'' ∈ text
  · obtain ⟨a, b, rfl, ha, hb⟩ := exists_dangling hmem h
    rw [hf.quote, List.count_append, List.count_cons_self, List.count_eq_zero.2 (hf.free ha),
      List.count_eq_zero.2 (hf.free hb)]
  · rw [List.count_eq_zero.2 (hf.free hmem)]
    exact Nat.zero_le 1

theorem paired (hf : KeepsQuotes f) {body : List Char} (h : Segment.paired body = true) :
    Segment.paired (f body) = true := by
  induction hn : body.length using Nat.strongRecOn generalizing body with
  | ind n ih =>
    by_cases hmem : '\'' ∈ body
    · obtain ⟨a, b, rfl, ha, hb⟩ := exists_pair h hmem
      have hpair : f ('\'' :: b) = '\'' :: f b := by simpa [hf.nil] using hf.quote [] b
      have hlength : b.length < n := by
        rw [← hn, List.length_append, List.length_cons, List.length_cons]
        omega
      rw [hf.quote, hpair, paired_append (hf.free ha)]
      exact ih b.length hlength hb rfl
    · have hfree := paired_append (hf.free hmem) []
      rwa [List.append_nil] at hfree

end KeepsQuotes

/-- A change of the text outside literals and one of their bodies. -/
def mapText (f g : List Char → List Char) : Segment → Segment
  | .outside text => .outside (f text)
  | .literal body => .literal (g body)

section

variable {f g : List Char → List Char} {segments : List Segment}

theorem mapOutside_eq : mapOutside f = mapText f id := by
  funext segment
  cases segment <;> rfl

theorem mapOutside_comp : mapOutside g ∘ mapOutside f = mapOutside (g ∘ f) := by
  funext segment
  cases segment <;> rfl

theorem bodies_map : bodies (segments.map (mapText f g)) = (bodies segments).map g := by
  induction segments with
  | nil => rfl
  | cons segment segments ih =>
    cases segment with
    | outside text => exact ih
    | literal body => exact congrArg (g body :: ·) ih

theorem outsides_map : outsides (segments.map (mapText f g)) = (outsides segments).map f := by
  induction segments with
  | nil => rfl
  | cons segment segments ih =>
    cases segment with
    | outside text => exact congrArg (f text :: ·) ih
    | literal body => exact ih

theorem between_map : between (segments.map (mapText f g)) = (between segments).map f := by
  rw [between, outsides_map, ← List.map_tail, ← List.map_dropLast, between]

theorem apart_map :
    Apart (segments.map (mapText f g)) ↔ ∀ text ∈ between segments, f text ≠ [] := by
  rw [Apart, between_map]
  simp

theorem Alternating.map (h : Alternating segments) (hf : KeepsQuotes f) (hg : KeepsQuotes g) :
    Alternating (segments.map (mapText f g)) := by
  induction h with
  | outside quotes => exact .outside (hf.count quotes)
  | literal free pairs alternating ih => exact .literal (hf.free free) (hg.paired pairs) ih

theorem KeepsQuotes.join (hf : KeepsQuotes f) (h : Alternating segments) :
    f (join segments) = Segment.join (segments.map (mapText f f)) := by
  induction h with
  | outside quotes => simp [Segment.join, Segment.text, mapText]
  | literal free pairs alternating ih =>
    rw [join_literal, hf.quote, hf.quote, ih]
    exact (join_literal _ _ _).symm

theorem keepsQuotes_id : KeepsQuotes id := ⟨fun _ _ => rfl, fun h => h, rfl⟩

/-- A change of the text outside literals that leaves nothing empty changes no literal. -/
theorem split_outsideLiterals (hf : KeepsQuotes f) (hempty : ∀ text, f text = [] → text = [])
    (cs : List Char) : split (outsideLiterals f cs) = (split cs).map (mapOutside f) := by
  obtain ⟨halternating, hapart, -⟩ := isSplit_split cs
  rw [outsideLiterals, mapOutside_eq]
  refine split_join (halternating.map hf keepsQuotes_id) (apart_map.2 fun text htext hnil => ?_)
  rw [hempty text hnil] at htext
  exact hapart htext

/-- Two literals that touch are one. -/
theorem exists_merged (h : Alternating segments) (hapart : ¬Apart segments) :
    ∃ merged, Alternating merged ∧ join merged = join segments ∧
      (bodies merged).length < (bodies segments).length := by
  induction h with
  | outside quotes => exact absurd List.not_mem_nil hapart
  | @literal text body rest free pairs alternating ih =>
    cases alternating with
    | outside quotes => exact absurd List.not_mem_nil hapart
    | @literal text' body' rest' free' pairs' alternating' =>
      by_cases htext : text' = []
      · subst htext
        refine ⟨_, .literal free (paired_pair pairs pairs') alternating', ?_, Nat.lt_succ_self _⟩
        simp [join_literal]
      · rw [Apart, between_literal alternating', List.mem_cons, not_or] at hapart
        obtain ⟨merged, hmerged, hjoin, hlength⟩ := ih fun hrest => hapart ⟨Ne.symm htext, hrest⟩
        refine ⟨_, .literal free pairs hmerged, ?_, Nat.succ_lt_succ hlength⟩
        rw [join_literal, hjoin, ← join_literal]

theorem length_bodies_split_join (h : Alternating segments) :
    (bodies (split (join segments))).length ≤ (bodies segments).length := by
  induction hn : (bodies segments).length using Nat.strongRecOn generalizing segments with
  | ind n ih =>
    by_cases hapart : Apart segments
    · rw [split_join h hapart, hn]
    · obtain ⟨merged, hmerged, hjoin, hlength⟩ := exists_merged h hapart
      rw [← hjoin]
      exact (ih _ (hn ▸ hlength) hmerged rfl).trans (hn ▸ hlength).le

end

/-- The bodies of the literals of a text. -/
def literals (cs : List Char) : List (List Char) := bodies (split cs)

theorem literals_outsideLiterals {f : List Char → List Char} (hf : KeepsQuotes f)
    (hempty : ∀ text, f text = [] → text = []) (cs : List Char) :
    literals (outsideLiterals f cs) = literals cs := by
  rw [literals, split_outsideLiterals hf hempty, mapOutside_eq, bodies_map, List.map_id, literals]

section

variable {f : List Char → List Char}

theorem split_map (hf : KeepsQuotes f) {cs : List Char}
    (hgaps : ∀ text ∈ between (split cs), f text ≠ []) :
    split (f cs) = (split cs).map (mapText f f) := by
  obtain ⟨halternating, -, hjoin⟩ := isSplit_split cs
  have hwhole : f cs = join ((split cs).map (mapText f f)) := by rw [← hf.join halternating, hjoin]
  rw [hwhole, split_join (halternating.map hf hf) (apart_map.2 hgaps)]

/-- A change of a whole text that leaves something between any two literals changes each on its
own. -/
theorem literals_map (hf : KeepsQuotes f) {cs : List Char}
    (hgaps : ∀ text ∈ between (split cs), f text ≠ []) :
    literals (f cs) = (literals cs).map f := by
  rw [literals, split_map hf hgaps, bodies_map, literals]

/-- If nothing is left between two literals, there are fewer of them. -/
theorem length_literals_lt (hf : KeepsQuotes f) {cs : List Char}
    (hgaps : ¬∀ text ∈ between (split cs), f text ≠ []) :
    (literals (f cs)).length < (literals cs).length := by
  obtain ⟨halternating, -, hjoin⟩ := isSplit_split cs
  obtain ⟨merged, hmerged, hjoin', hlength⟩ :=
    exists_merged (halternating.map hf hf) fun h => hgaps (apart_map.1 h)
  have hle := length_bodies_split_join hmerged
  rw [hjoin', ← hf.join halternating, hjoin] at hle
  rw [bodies_map, List.length_map] at hlength
  exact hle.trans_lt hlength

/-- A change of a whole text leaves its literals as they are exactly if it changes none of them on
its own and leaves something between any two. -/
theorem literals_eq_iff (hf : KeepsQuotes f) (cs : List Char) :
    literals (f cs) = literals cs ↔
      (∀ body ∈ literals cs, f body = body) ∧ ∀ text ∈ between (split cs), f text ≠ [] := by
  constructor
  · intro heq
    have hgaps : ∀ text ∈ between (split cs), f text ≠ [] := by
      by_contra hmerges
      exact absurd (congrArg List.length heq) (length_literals_lt hf hmerges).ne
    refine ⟨fun body hbody => ?_, hgaps⟩
    have hmap : (literals cs).map f = (literals cs).map id := by
      rw [← literals_map hf hgaps, heq, List.map_id]
    exact List.map_eq_map_iff.1 hmap body hbody
  · rintro ⟨hsame, hgaps⟩
    rw [literals_map hf hgaps, List.map_congr_left hsame, List.map_id']

end

end Segment
end SchemaTransfer
