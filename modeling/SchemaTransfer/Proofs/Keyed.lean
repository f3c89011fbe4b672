import Mathlib.Data.List.Basic
import SchemaTransfer.Keyed

/-!
# Properties of all entries of a table

`All` says something of every key with its value. Putting an entry in asks for the property of
that entry alone, whatever it replaces.
-/
namespace SchemaTransfer.Keyed

variable {α : Type}

theorem lookup_isSome_iff (es : List (String × α)) (k : String) :
    (es.lookup k).isSome = true ↔ k ∈ es.map (·.1) := by
  induction es with
  | nil => simp
  | cons e es ih =>
    obtain ⟨l, a⟩ := e
    by_cases h : k = l
    · simp [h]
    · have hkl : (k == l) = false := by simp [h]
      simp [List.lookup_cons, hkl, h, ih]

theorem contains_iff_mem_keys (t : Keyed α) (k : String) : t.contains k = true ↔ k ∈ t.keys :=
  lookup_isSome_iff t.entries k

theorem keys_length (t : Keyed α) : t.keys.length = t.size := List.length_map _

theorem mem_of_lookup {es : List (String × α)} {k : String} {a : α}
    (h : es.lookup k = some a) : (k, a) ∈ es := by
  induction es with
  | nil => simp at h
  | cons e es ih =>
    obtain ⟨l, b⟩ := e
    by_cases hkl : k = l
    · subst hkl
      simp only [List.lookup_cons, beq_self_eq_true, Option.some.injEq] at h
      simp [h]
    · have hbeq : (k == l) = false := by simp [hkl]
      simp only [List.lookup_cons, hbeq] at h
      exact List.mem_cons_of_mem _ (ih h)

theorem mem_entries_of_get? {t : Keyed α} {k : String} {a : α} (h : t.get? k = some a) :
    (k, a) ∈ t.entries := mem_of_lookup h

theorem get?_of_mem {t : Keyed α} {e : String × α} (h : e ∈ t.entries) : t.get? e.1 = some e.2 := by
  obtain ⟨es, hes⟩ := t
  show es.lookup e.1 = some e.2
  induction es with
  | nil => cases h
  | cons f es ih =>
    obtain ⟨hf, hes⟩ := List.pairwise_cons.1 hes
    rcases List.mem_cons.1 h with rfl | h
    · rw [List.lookup_cons, beq_self_eq_true]
    · have hbeq : (e.1 == f.1) = false := by
        simpa using fun hkey : e.1 = f.1 => String.lt_irrefl f.1 (hkey ▸ hf e h)
      rw [List.lookup_cons, hbeq]
      exact ih hes h

theorem keys_nodup (t : Keyed α) : t.keys.Nodup := by
  refine List.pairwise_map.2 (t.ordered.imp fun {a b} hlt hkey => ?_)
  exact String.lt_irrefl b.1 (hkey ▸ hlt)

theorem get?_eq_none_iff (t : Keyed α) (k : String) : t.get? k = none ↔ t.contains k = false := by
  simp [contains]

theorem mem_insertEntry {k : String} {a : α} {es : List (String × α)} {e : String × α}
    (h : e ∈ insertEntry k a es) : e = (k, a) ∨ e ∈ es := by
  fun_induction insertEntry k a es with
  | case1 => simpa using h
  | case2 l b es _ => simpa using h
  | case3 b es _ =>
    rcases List.mem_cons.1 h with h | h
    · exact .inl h
    · exact .inr (List.mem_cons_of_mem _ h)
  | case4 l b es _ _ ih =>
    rcases List.mem_cons.1 h with h | h
    · exact .inr (h ▸ List.mem_cons_self)
    · exact (ih h).imp_right (List.mem_cons_of_mem _)

theorem get?_insert (t : Keyed α) (k l : String) (a : α) :
    (t.insert k a).get? l = if k = l then some a else t.get? l := by
  split
  · next h => rw [← h, get?_insert_self]
  · next h => rw [get?_insert_of_ne t a h]

theorem lookup_eq_none_of_lt {es : List (String × α)} {k : String} (h : ∀ e ∈ es, k < e.1) :
    es.lookup k = none := by
  refine List.lookup_eq_none_iff.2 fun e he => ?_
  simpa using fun hk : k = e.1 => String.lt_irrefl k (hk.symm ▸ h e he)

/-- Two ordered lists of entries between which no key tells are the same list. -/
theorem entries_ext {es fs : List (String × α)} (hes : es.Pairwise fun a b => a.1 < b.1)
    (hfs : fs.Pairwise fun a b => a.1 < b.1) (h : ∀ k, es.lookup k = fs.lookup k) : es = fs := by
  induction es generalizing fs with
  | nil =>
    cases fs with
    | nil => rfl
    | cons f fs =>
      obtain ⟨l, b⟩ := f
      simpa using h l
  | cons e es ih =>
    cases fs with
    | nil =>
      obtain ⟨k, a⟩ := e
      simpa using h k
    | cons f fs =>
      obtain ⟨k, a⟩ := e
      obtain ⟨l, b⟩ := f
      obtain ⟨hk, hes'⟩ := List.pairwise_cons.1 hes
      obtain ⟨hl, hfs'⟩ := List.pairwise_cons.1 hfs
      -- A first key that is the smaller one would be found in one list only.
      have hkl : k = l := by
        refine String.le_antisymm (String.not_lt.1 fun hlt => ?_) (String.not_lt.1 fun hlt => ?_)
        · have hnone : ((k, a) :: es).lookup l = none := by
            refine lookup_eq_none_of_lt fun e he => ?_
            rcases List.mem_cons.1 he with rfl | he
            · exact hlt
            · exact String.lt_trans hlt (hk e he)
          rw [h] at hnone
          simp at hnone
        · have hnone : ((l, b) :: fs).lookup k = none := by
            refine lookup_eq_none_of_lt fun e he => ?_
            rcases List.mem_cons.1 he with rfl | he
            · exact hlt
            · exact String.lt_trans hlt (hl e he)
          rw [← h] at hnone
          simp at hnone
      subst hkl
      have hab : a = b := by simpa using h k
      subst hab
      refine congrArg _ (ih hes' hfs' fun m => ?_)
      by_cases hm : m = k
      · rw [hm, lookup_eq_none_of_lt hk, lookup_eq_none_of_lt hl]
      · have hbeq : (m == k) = false := by simp [hm]
        simpa [List.lookup_cons, hbeq] using h m

theorem ext_get? {t u : Keyed α} (h : ∀ k, t.get? k = u.get? k) : t = u := by
  obtain ⟨es, hes⟩ := t
  obtain ⟨fs, hfs⟩ := u
  cases entries_ext hes hfs h
  rfl

/-- Where only the entry of one key contributes, the others can be left out. -/
theorem flatMap_entries {β : Type} (t : Keyed α) (k : String) {f : String × α → List β}
    (h : ∀ e ∈ t.entries, e.1 ≠ k → f e = []) :
    t.entries.flatMap f = (t.get? k).toList.flatMap fun a => f (k, a) := by
  obtain ⟨es, hes⟩ := t
  show es.flatMap f = (es.lookup k).toList.flatMap fun a => f (k, a)
  induction es with
  | nil => rfl
  | cons e es ih =>
    obtain ⟨l, a⟩ := e
    obtain ⟨hl, hes⟩ := List.pairwise_cons.1 hes
    rw [List.flatMap_cons]
    by_cases hk : k = l
    · subst hk
      have hnone : es.flatMap f = [] := List.flatMap_eq_nil_iff.2 fun e he =>
        h e (List.mem_cons_of_mem _ he) fun hek => String.lt_irrefl k (hek ▸ hl e he)
      rw [hnone, List.lookup_cons, beq_self_eq_true]
      simp
    · have hbeq : (k == l) = false := by simp [hk]
      rw [h (l, a) List.mem_cons_self (Ne.symm hk), List.nil_append, List.lookup_cons, hbeq]
      exact ih hes fun e he => h e (List.mem_cons_of_mem _ he)

theorem insertEntry_perm {k : String} {a : α} {es : List (String × α)}
    (h : k ∉ es.map (·.1)) : (insertEntry k a es).Perm ((k, a) :: es) := by
  fun_induction insertEntry k a es with
  | case1 => exact .refl _
  | case2 l b es _ => exact .refl _
  | case3 b es _ => exact absurd List.mem_cons_self h
  | case4 l b es _ _ ih =>
    rw [List.map_cons, List.mem_cons, not_or] at h
    exact ((ih h.2).cons _).trans (.swap _ _ _)

theorem foldl_insert_perm (t : Keyed α) (es : List (String × α))
    (h : ((es ++ t.entries).map (·.1)).Nodup) :
    (es.foldl (fun t e => t.insert e.1 e.2) t).entries.Perm (es ++ t.entries) := by
  induction es generalizing t with
  | nil => exact .refl _
  | cons e es ih =>
    rw [List.cons_append, List.map_cons, List.nodup_cons] at h
    have hperm : (t.insert e.1 e.2).entries.Perm (e :: t.entries) :=
      insertEntry_perm fun he => h.1 (by rw [List.map_append]; exact List.mem_append_right _ he)
    have hall : (es ++ (t.insert e.1 e.2).entries).Perm (e :: (es ++ t.entries)) :=
      (hperm.append_left es).trans List.perm_middle
    refine (ih _ ?_).trans hall
    refine (hall.map (·.1)).nodup_iff.2 ?_
    rw [List.map_cons]
    exact List.nodup_cons.2 h

/-- Nothing is lost where no key occurs twice. -/
theorem ofList_perm (es : List (String × α)) (h : (es.map (·.1)).Nodup) :
    (ofList es).entries.Perm es := by
  have hperm := foldl_insert_perm empty es (by simpa [empty] using h)
  rwa [show (empty : Keyed α).entries = [] from rfl, List.append_nil] at hperm

/-- Every entry has the property. -/
def All (p : String → α → Prop) (t : Keyed α) : Prop := ∀ e ∈ t.entries, p e.1 e.2

namespace All

variable {p q : String → α → Prop} {t : Keyed α}

theorem empty : All p (Keyed.empty : Keyed α) := by
  intro e he
  cases he

theorem insert (h : All p t) {k : String} {a : α} (hka : p k a) : All p (t.insert k a) := by
  intro e he
  rcases mem_insertEntry he with rfl | he
  · exact hka
  · exact h e he

theorem of_get? (h : All p t) {k : String} {a : α} (hk : t.get? k = some a) : p k a :=
  h (k, a) (mem_entries_of_get? hk)

/-- The value of a key, or of a key that is not there a value with the property. -/
theorem getD (h : All p t) {k : String} {a : α} (hka : p k a) : p k ((t.get? k).getD a) := by
  cases hk : t.get? k with
  | none => exact hka
  | some b => exact h.of_get? hk

theorem mono (h : All p t) (hpq : ∀ k a, p k a → q k a) : All q t :=
  fun e he => hpq _ _ (h e he)

end All

end SchemaTransfer.Keyed
