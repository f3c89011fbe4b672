import Mathlib
import SchemaTransfer.Unicode.Casing

/-!
# Lower case twice

A text in lower case stays as it is when it is brought to lower case again. It holds letters that
are their own lower case and no capital sigma, the one letter whose form depends on those around
it. Its length is the sum of what its letters become one by one, so no part of a text gets lost.
-/
namespace SchemaTransfer.Unicode

/-- The image of one run and the domain of another have nothing in common: one lies ahead of the
other, or they alternate. -/
def Run.isApart (r q : Run) : Bool :=
  -- Projections, as it is the kernel that goes through all pairs of a table.
  (q.2.1 + 1).ble r.2.2.2 || ((r.2.2.2 + (r.2.1 - r.1) + 1).ble q.1 ||
    (q.2.2.1.beq 2 && (r.2.2.1.beq 2 || r.1.beq r.2.1) && ((r.2.2.2 + q.1) % 2).beq 1))

theorem image?_eq_none_of_image? {runs : List Run} {n m : Nat}
    (hruns : ∀ r ∈ runs, ∀ q ∈ runs, r.isApart q = true) (h : image? runs n = some m) :
    image? runs m = none := by
  obtain ⟨⟨first, last, step, target⟩, hr, himage⟩ := List.exists_of_findSome?_eq_some h
  refine List.findSome?_eq_none_iff.2 fun ⟨first', last', step', target'⟩ hq => ?_
  have hapart := hruns _ hr _ hq
  dsimp only [Run.isApart] at himage hapart ⊢
  split at himage
  · next hdomain =>
    have hm := Option.some.inj himage
    simp only [Bool.and_eq_true, Bool.or_eq_true, decide_eq_true_eq, beq_iff_eq, Nat.ble_eq,
      Nat.beq_eq] at hdomain hapart
    obtain ⟨⟨hfirst, hlast⟩, hstep⟩ := hdomain
    refine if_neg fun hdomain' => ?_
    simp only [Bool.and_eq_true, decide_eq_true_eq, beq_iff_eq] at hdomain'
    obtain ⟨⟨hfirst', hlast'⟩, hstep'⟩ := hdomain'
    rcases hapart with hahead | hbehind | ⟨⟨hstep2, hone⟩, hparity⟩
    · omega
    · omega
    · subst hstep2
      rcases hone with rfl | rfl <;> omega
  · cases himage

namespace Casing

/-- A character that lower case leaves as it is, wherever it stands. -/
def IsLower (c : Char) : Prop := c ≠ 'Σ' ∧ lowerChar c = [c]

instance (c : Char) : Decidable (IsLower c) := inferInstanceAs (Decidable (_ ∧ _))

theorem lowerRuns_isApart : ∀ r ∈ lowerRuns, ∀ q ∈ lowerRuns, r.isApart q = true := by
  have hall : (lowerRuns.all fun r => lowerRuns.all r.isApart) = true := by decide +kernel
  exact fun r hr => List.all_eq_true.1 (List.all_eq_true.1 hall r hr)

/-- The code points that the runs map to: ASCII only for the Kelvin sign, and no surrogates. -/
theorem lowerRuns_targets : ∀ r ∈ lowerRuns,
    (128 ≤ r.2.2.2 ∨ r.1 = r.2.1 ∧ r.2.2.2 = 'k'.toNat) ∧
      (r.2.2.2 + (r.2.1 - r.1) < 0x130 ∨ 0x130 < r.2.2.2) ∧
      (r.2.2.2 + (r.2.1 - r.1) < 0xd800 ∨
        0xdfff < r.2.2.2 ∧ r.2.2.2 + (r.2.1 - r.1) < 0x110000) := by
  decide +kernel

theorem toNat_of_image? {n m : Nat} (h : image? lowerRuns n = some m) :
    (Char.ofNat m).toNat = m ∧ (128 ≤ m ∨ m = 'k'.toNat) ∧ m ≠ 0x130 := by
  obtain ⟨⟨first, last, step, target⟩, hr, hm⟩ := List.exists_of_findSome?_eq_some h
  obtain ⟨hascii, hdotted, hvalid⟩ := lowerRuns_targets _ hr
  dsimp only at hascii hdotted hvalid hm
  split at hm
  · next hdomain =>
    simp only [Bool.and_eq_true, decide_eq_true_eq] at hdomain
    have hm := Option.some.inj hm
    refine ⟨?_, by omega, by omega⟩
    rw [Char.toNat_ofNat, if_pos]
    unfold Nat.isValidChar
    omega
  · cases hm

theorem isLower_of_image? {n m : Nat} (h : image? lowerRuns n = some m) :
    IsLower (Char.ofNat m) := by
  have himage := image?_eq_none_of_image? lowerRuns_isApart h
  obtain ⟨htoNat, hlarge | rfl, hdotted⟩ := toNat_of_image? h
  · refine ⟨fun hsigma => ?_, ?_⟩
    · rw [hsigma] at htoNat
      rw [← htoNat] at himage
      exact absurd himage (by decide)
    · unfold lowerChar
      dsimp only
      rw [htoNat, if_neg (by omega), if_neg (by simpa using hdotted), himage]
      rfl
  · decide

/-- The letters of ASCII change in either case, and only to letters. -/
theorem ascii_cases : ∀ n < 128, IsLower (Char.ofNat n).toLower ∧
    ((Char.ofNat n).toLower.toNat < 'A'.toNat → (Char.ofNat n).toLower = Char.ofNat n) ∧
    ((Char.ofNat n).toUpper.toNat < 'A'.toNat → (Char.ofNat n).toUpper = Char.ofNat n) := by
  decide +kernel

theorem isLower_of_mem_lowerChar {c d : Char} (hc : c ≠ 'Σ') (h : d ∈ lowerChar c) :
    IsLower d := by
  unfold lowerChar at h
  dsimp only at h
  split at h
  · next hascii =>
    rw [List.mem_singleton, ← Char.ofNat_toNat c] at h
    rw [h]
    exact (ascii_cases c.toNat hascii).1
  · next hascii =>
    split at h
    · simp only [List.mem_cons, List.not_mem_nil, or_false] at h
      rcases h with rfl | rfl <;> decide
    · next hdotted =>
      rw [List.mem_singleton] at h
      cases himage : image? lowerRuns c.toNat with
      | none =>
        rw [himage] at h
        obtain rfl : d = c := h
        refine ⟨hc, ?_⟩
        unfold lowerChar
        dsimp only
        rw [if_neg hascii, if_neg hdotted, himage]
        rfl
      | some m =>
        rw [himage] at h
        obtain rfl : d = Char.ofNat m := h
        exact isLower_of_image? himage

theorem isLower_of_mem_lowerFrom {inWord : Bool} {cs : List Char} :
    ∀ d ∈ lowerFrom inWord cs, IsLower d := by
  induction cs generalizing inWord with
  | nil => exact fun d hd => absurd hd List.not_mem_nil
  | cons c cs ih =>
    intro d hd
    rw [lowerFrom] at hd
    split at hd
    · rcases List.mem_cons.1 hd with rfl | hd
      · split <;> decide
      · exact ih d hd
    · next hsigma =>
      rcases List.mem_append.1 hd with hd | hd
      · exact isLower_of_mem_lowerChar (by simpa using hsigma) hd
      · exact ih d hd

theorem lowerFrom_of_isLower {inWord : Bool} {cs : List Char} (h : ∀ c ∈ cs, IsLower c) :
    lowerFrom inWord cs = cs := by
  induction cs generalizing inWord with
  | nil => rfl
  | cons c cs ih =>
    obtain ⟨⟨hsigma, hc⟩, hcs⟩ := List.forall_mem_cons.1 h
    rw [lowerFrom, if_neg (by simpa using hsigma), hc, ih hcs]
    rfl

/-- A character below the letters comes from itself only. -/
theorem eq_of_mem_lowerChar {c d : Char} (hd : d.toNat < 'A'.toNat) (h : d ∈ lowerChar c) :
    c = d := by
  unfold lowerChar at h
  dsimp only at h
  split at h
  · next hascii =>
    rw [List.mem_singleton, ← Char.ofNat_toNat c] at h
    rw [h] at hd ⊢
    rw [(ascii_cases c.toNat hascii).2.1 hd, Char.ofNat_toNat]
  · split at h
    · simp only [List.mem_cons, List.not_mem_nil, or_false] at h
      rcases h with rfl | rfl <;> exact absurd hd (by decide)
    · rw [List.mem_singleton] at h
      cases himage : image? lowerRuns c.toNat with
      | none =>
        rw [himage] at h
        exact h.symm
      | some m =>
        rw [himage] at h
        obtain rfl : d = Char.ofNat m := h
        obtain ⟨htoNat, hlarge, -⟩ := toNat_of_image? himage
        rw [htoNat] at hd
        have hletters : 'A'.toNat ≤ 'k'.toNat ∧ 'k'.toNat < 128 := by decide
        omega

theorem mem_of_mem_lowerFrom {d : Char} (hd : d.toNat < 'A'.toNat) {inWord : Bool}
    {cs : List Char} (h : d ∈ lowerFrom inWord cs) : d ∈ cs := by
  induction cs generalizing inWord with
  | nil => exact h
  | cons c cs ih =>
    rw [lowerFrom] at h
    split at h
    · rcases List.mem_cons.1 h with rfl | h
      · split at hd <;> exact absurd hd (by decide)
      · exact List.mem_cons_of_mem _ (ih h)
    · rcases List.mem_append.1 h with h | h
      · rw [eq_of_mem_lowerChar hd h]
        exact List.mem_cons_self
      · exact List.mem_cons_of_mem _ (ih h)

theorem lowerChar_of_lt {c : Char} (hc : c.toNat < 'A'.toNat) : lowerChar c = [c] := by
  have hascii : c.toNat < 128 := hc.trans (by decide)
  have hupper : ¬(c.val ≥ 'A'.val ∧ c.val ≤ 'Z'.val) := fun h => Nat.not_le_of_lt hc h.1
  unfold lowerChar Char.toLower
  rw [if_pos hascii, dif_neg hupper]

theorem mem_lowerFrom_of_mem {d : Char} (hd : d.toNat < 'A'.toNat) {inWord : Bool}
    {cs : List Char} (h : d ∈ cs) : d ∈ lowerFrom inWord cs := by
  induction cs generalizing inWord with
  | nil => exact h
  | cons c cs ih =>
    rw [lowerFrom]
    rcases List.mem_cons.1 h with rfl | h
    · have hsigma : d ≠ 'Σ' := by
        rintro rfl
        exact absurd hd (by decide)
      rw [if_neg (by simpa using hsigma), lowerChar_of_lt hd]
      exact List.mem_cons_self
    · split
      · exact List.mem_cons_of_mem _ (ih h)
      · exact List.mem_append_right _ (ih h)

/-- Nothing beyond ASCII becomes a character below the letters in upper case. -/
theorem upper_targets : (∀ r ∈ upperRuns, 'A'.toNat ≤ r.2.2.2) ∧
    ∀ e ∈ upperExpansions, ∀ m ∈ e.2, 'A'.toNat ≤ (Char.ofNat m).toNat := by
  decide +kernel

theorem upperRuns_ge {n m : Nat} (h : image? upperRuns n = some m) : 'A'.toNat ≤ m := by
  obtain ⟨⟨first, last, step, target⟩, hr, hm⟩ := List.exists_of_findSome?_eq_some h
  have htarget := upper_targets.1 _ hr
  dsimp only at hm htarget
  split at hm
  · rw [← Option.some.inj hm]
    omega
  · cases hm

/-- In upper case, too, a character below the letters comes from itself only. -/
theorem eq_of_mem_upperChar {c d : Char} (hd : d.toNat < 'A'.toNat) (hpos : 0 < d.toNat)
    (h : d ∈ upperChar c) : c = d := by
  unfold upperChar at h
  dsimp only at h
  split at h
  · next hascii =>
    rw [List.mem_singleton, ← Char.ofNat_toNat c] at h
    rw [h] at hd ⊢
    rw [(ascii_cases c.toNat hascii).2.2 hd, Char.ofNat_toNat]
  · split at h
    · next e he =>
      obtain ⟨m, hm, rfl⟩ := List.mem_map.1 h
      have hbound := upper_targets.2 e (List.mem_of_find?_eq_some he) m hm
      omega
    · rw [List.mem_singleton] at h
      cases himage : image? upperRuns c.toNat with
      | none =>
        rw [himage] at h
        exact h.symm
      | some m =>
        rw [himage] at h
        obtain rfl : d = Char.ofNat m := h
        have hlarge := upperRuns_ge himage
        have hcode : (Char.ofNat m).toNat = m ∨ (Char.ofNat m).toNat = 0 := by
          rw [Char.toNat_ofNat]
          split
          · exact .inl rfl
          · exact .inr rfl
        omega

theorem mem_of_mem_upper {d : Char} (hd : d.toNat < 'A'.toNat) (hpos : 0 < d.toNat)
    {cs : List Char} (h : d ∈ upper cs) : d ∈ cs := by
  obtain ⟨c, hc, hmem⟩ := List.mem_flatMap.1 h
  exact eq_of_mem_upperChar hd hpos hmem ▸ hc

/-- The number of letters that a letter becomes. -/
def lowerLength (c : Char) : Nat := if c = 'Σ' then 1 else (lowerChar c).length

theorem lowerLength_pos (c : Char) : 0 < lowerLength c := by
  have hchar : lowerChar c ≠ [] := by
    unfold lowerChar
    dsimp only
    split
    · exact List.cons_ne_nil _ _
    · split <;> exact List.cons_ne_nil _ _
  unfold lowerLength
  split
  · exact Nat.one_pos
  · exact List.length_pos_iff.2 hchar

theorem length_lowerFrom (inWord : Bool) (cs : List Char) :
    (lowerFrom inWord cs).length = (cs.map lowerLength).sum := by
  induction cs generalizing inWord with
  | nil => rfl
  | cons c cs ih =>
    rw [lowerFrom, List.map_cons, List.sum_cons, lowerLength]
    by_cases hc : c = 'Σ'
    · rw [if_pos (by simpa using hc), if_pos hc, List.length_cons, ih, Nat.add_comm]
    · rw [if_neg (by simpa using hc), if_neg hc, List.length_append, ih]

end Casing

theorem lower_eq_nil {cs : List Char} : lower cs = [] ↔ cs = [] := by
  rw [← List.length_eq_zero_iff, lower, Casing.length_lowerFrom]
  cases cs with
  | nil => exact iff_of_true rfl rfl
  | cons c cs =>
    have hpos := Casing.lowerLength_pos c
    rw [List.map_cons, List.sum_cons]
    exact iff_of_false (by omega) (List.cons_ne_nil c cs)

/-- A piece of a text that has the lower case of all of it leaves nothing out. -/
theorem eq_of_lower_eq_lower {a b c : List Char} (h : lower b = lower (a ++ (b ++ c))) :
    a = [] ∧ c = [] := by
  have hlength := congrArg List.length h
  unfold lower at hlength
  simp only [Casing.length_lowerFrom, List.map_append, List.sum_append] at hlength
  have hnil {d : List Char} (hd : (d.map Casing.lowerLength).sum = 0) : d = [] := by
    rw [← Casing.length_lowerFrom false] at hd
    exact lower_eq_nil.1 (List.length_eq_zero_iff.1 hd)
  exact ⟨hnil (by omega), hnil (by omega)⟩

end SchemaTransfer.Unicode
