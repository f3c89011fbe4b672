import SchemaTransfer.Proofs.Dump.Fragment

/-!
# How far a scanner reads

A scanner stops at a text if, whatever stands before it, it takes the same part as without it. What
a scanner passes is told by the characters it can be made of.
-/
namespace SchemaTransfer
open Unicode

namespace Scan

/-- Whatever stands before `e`, `p` reads it as if nothing followed. -/
def StopsAt (p : List Char → Option (List Char)) (e : List Char) : Prop :=
  ∀ cs, p (cs ++ e) = (p cs).map (· ++ e)

section

variable {p q : List Char → Option (List Char)} {c : Char} {e : List Char}

theorem StopsAt.bind (hp : StopsAt p e) (hq : StopsAt q e) :
    StopsAt (fun cs => (p cs).bind q) e := by
  intro cs
  dsimp only
  rw [hp cs]
  cases p cs with
  | none => rfl
  | some rest => exact hq rest

theorem StopsAt.optional (hp : StopsAt p e) (cs : List Char) :
    optional p (cs ++ e) = optional p cs ++ e := by
  unfold Scan.optional
  rw [hp cs]
  cases p cs <;> rfl

theorem stopsAt_keyword? {w : String} (h : Casing.fold c ∉ w.toList) :
    StopsAt (keyword? w) (c :: e) := by
  intro cs
  unfold keyword?
  generalize w.toList = ws at h
  induction ws generalizing cs with
  | nil => rfl
  | cons d ws ih =>
    obtain ⟨hd, hws⟩ := List.ne_and_not_mem_of_not_mem_cons h
    cases cs with
    | nil => simp [keywordChars?, hd]
    | cons b cs =>
      rw [List.cons_append, keywordChars?, keywordChars?]
      split
      · exact ih cs hws
      · rfl

theorem stopsAt_literal? {w : String} (h : c ∉ w.toList) : StopsAt (literal? w) (c :: e) := by
  intro cs
  unfold literal?
  generalize w.toList = ws at h
  induction ws generalizing cs with
  | nil => rfl
  | cons d ws ih =>
    obtain ⟨hd, hws⟩ := List.ne_and_not_mem_of_not_mem_cons h
    cases cs with
    | nil => simp [List.isPrefixOf?, Ne.symm hd]
    | cons b cs =>
      rw [List.cons_append, List.isPrefixOf?, List.isPrefixOf?]
      split
      · exact ih cs hws
      · rfl

theorem trimLeft_append_cons (h : isBlank c = false) (cs : List Char) :
    trimLeft (cs ++ c :: e) = trimLeft cs ++ c :: e := by
  induction cs with
  | nil => exact trimLeft_cons h e
  | cons b cs ih =>
    unfold trimLeft at ih ⊢
    rw [List.cons_append, List.dropWhile_cons, List.dropWhile_cons]
    split
    · exact ih
    · rfl

theorem stopsAt_blanks? (h : isBlank c = false) : StopsAt blanks? (c :: e) := by
  intro cs
  cases cs with
  | nil => exact blanks?_of_not_blank h e
  | cons b cs =>
    rw [List.cons_append, blanks?, blanks?, trimLeft_append_cons h]
    split <;> rfl

theorem stopsAt_wordEnds (h : isWord c = false) :
    StopsAt (fun cs => if wordEnds cs then some cs else none) (c :: e) := by
  intro cs
  cases cs with
  | nil => simp [wordEnds, h]
  | cons b cs =>
    by_cases hb : isWord b = true <;> simp [wordEnds, hb]

end

/-- `rest` is what is left of `cs` behind characters of which `P` holds. -/
def Passes (P : Char → Prop) (cs rest : List Char) : Prop :=
  ∃ used, cs = used ++ rest ∧ ∀ c ∈ used, P c

section

variable {P Q : Char → Prop} {cs mid rest : List Char}

theorem Passes.refl (cs : List Char) : Passes P cs cs := ⟨[], rfl, nofun⟩

theorem Passes.trans (h : Passes P cs mid) (h' : Passes P mid rest) : Passes P cs rest := by
  obtain ⟨a, rfl, ha⟩ := h
  obtain ⟨b, rfl, hb⟩ := h'
  refine ⟨a ++ b, (List.append_assoc a b rest).symm, fun c hc => ?_⟩
  rcases List.mem_append.1 hc with hc | hc
  · exact ha c hc
  · exact hb c hc

theorem Passes.mono (h : Passes P cs rest) (hPQ : ∀ c, P c → Q c) : Passes Q cs rest := by
  obtain ⟨used, rfl, hused⟩ := h
  exact ⟨used, rfl, fun c hc => hPQ c (hused c hc)⟩

theorem passes_trimLeft (cs : List Char) : Passes (isBlank · = true) cs (trimLeft cs) :=
  ⟨cs.takeWhile isBlank, List.takeWhile_append_dropWhile.symm,
    fun _ hc => List.mem_takeWhile_imp hc⟩

theorem passes_blanks? (h : blanks? cs = some rest) : Passes (isBlank · = true) cs rest := by
  cases cs with
  | nil => cases h
  | cons c cs =>
    rw [blanks?] at h
    split at h
    · next hc =>
      cases h
      obtain ⟨used, hcs, hused⟩ := passes_trimLeft cs
      exact ⟨c :: used, congrArg (c :: ·) hcs, List.forall_mem_cons.2 ⟨hc, hused⟩⟩
    · cases h

theorem keyword?_eq_some {w : String} (h : keyword? w cs = some rest) :
    ∃ used, cs = used ++ rest ∧ used.map Casing.fold = w.toList := by
  unfold keyword? at h
  generalize w.toList = ws at h
  induction ws generalizing cs with
  | nil => exact ⟨[], Option.some.inj h, rfl⟩
  | cons d ws ih =>
    cases cs with
    | nil => cases h
    | cons c cs =>
      rw [keywordChars?] at h
      split at h
      · next hc =>
        obtain ⟨used, rfl, hused⟩ := ih h
        exact ⟨c :: used, rfl, by rw [List.map_cons, hused, beq_iff_eq.1 hc]⟩
      · cases h

theorem passes_keyword? {w : String} (h : keyword? w cs = some rest) :
    Passes (fun c => Casing.fold c ∈ w.toList) cs rest := by
  obtain ⟨used, rfl, hused⟩ := keyword?_eq_some h
  exact ⟨used, rfl, fun c hc => hused ▸ List.mem_map_of_mem hc⟩

theorem passes_optional {p : List Char → Option (List Char)}
    (h : ∀ {rest}, p cs = some rest → Passes P cs rest) : Passes P cs (optional p cs) := by
  unfold optional
  cases hp : p cs with
  | none => exact .refl cs
  | some rest => exact h hp

end

end Scan
end SchemaTransfer
