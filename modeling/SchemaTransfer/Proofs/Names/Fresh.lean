import Mathlib
import SchemaTransfer.Proofs.Keyed
import SchemaTransfer.Target.Names

/-!
# Free names

Of more numbered names than there are names taken, one is free. So the search for a number ends
within its bound, and the name closest to the one that is wanted is free.
-/
namespace SchemaTransfer.Names

/-- A family without repetitions leaves any list of names before it has one member more than the
list. -/
theorem exists_not_mem_of_injective {f : ℕ → String} (hf : Function.Injective f)
    (taken : List String) : ∃ k < taken.length + 1, f k ∉ taken := by
  by_contra h
  push Not at h
  have hsub : (List.range (taken.length + 1)).map f ⊆ taken := by
    intro x hx
    obtain ⟨k, hk, rfl⟩ := List.mem_map.1 hx
    exact h k (List.mem_range.1 hk)
  have hnodup : ((List.range (taken.length + 1)).map f).Nodup := List.nodup_range.map hf
  have hlen := (hnodup.subperm hsub).length_le
  simp at hlen

theorem numbered_injective (base : String) :
    Function.Injective fun k : ℕ => base ++ (k + 1).repr := by
  intro j k h
  have hrepr : (j + 1).repr = (k + 1).repr := (String.append_right_inj base).1 h
  have := Nat.repr_injective hrepr
  omega

/-- If one of the names that are tried is free, the first free one is taken. -/
theorem numbered_spec {isTaken : String → Bool} {base : String} {bound : ℕ}
    (h : ∃ k < bound, isTaken (base ++ (k + 1).repr) = false) :
    ∃ k < bound, numbered isTaken base bound = base ++ (k + 1).repr ∧
      isTaken (base ++ (k + 1).repr) = false ∧
      ∀ j < k, isTaken (base ++ (j + 1).repr) = true := by
  let free : ℕ → Bool := fun k => !isTaken (base ++ (k + 1).repr)
  cases hfind : (List.range bound).find? free with
  | none =>
    obtain ⟨k, hk, hfree⟩ := h
    have := List.find?_eq_none.1 hfind k (List.mem_range.2 hk)
    simp [free, hfree] at this
  | some k =>
    obtain ⟨hfree, hk, hleast⟩ := List.find?_range_eq_some.1 hfind
    refine ⟨k, List.mem_range.1 hk, ?_, by simpa [free] using hfree, ?_⟩
    · have hmap : ((fun c => !isTaken c) ∘ fun k : ℕ => base ++ (k + 1).repr) = free := rfl
      rw [numbered, List.find?_map, hmap, hfind]
      rfl
    · intro j hj
      simpa [free] using hleast j hj

theorem exists_numbered_free (taken : Keyed String) (base : String) :
    ∃ k < taken.size + 1, taken.contains (base ++ (k + 1).repr) = false := by
  obtain ⟨k, hk, hfree⟩ := exists_not_mem_of_injective (numbered_injective base) taken.keys
  refine ⟨k, by simpa [Keyed.keys_length] using hk, ?_⟩
  rw [Bool.eq_false_iff, ne_eq, Keyed.contains_iff_mem_keys]
  exact hfree

theorem closest_free (taken : Keyed String) (wanted kind : String) :
    taken.get? (closest taken wanted kind) = none := by
  rw [Keyed.get?_eq_none_iff]
  fun_cases closest taken wanted kind with
  | case1 hwanted => simpa using hwanted
  | case2 _ _ hkind => simpa using hkind
  | case3 =>
    obtain ⟨k, -, hk, hfree, -⟩ := numbered_spec (exists_numbered_free taken wanted)
    rw [hk]
    exact hfree

end SchemaTransfer.Names
