import Mathlib.Data.List.DropRight
import Mathlib.Data.List.TakeWhile
import SchemaTransfer.Unicode.Blank

/-!
# Trimming

What trimming leaves does not change when it is trimmed again, and blanks at the end of a text do
not change what trimming leaves of it.
-/
namespace SchemaTransfer.Unicode

theorem trimRight_eq_rdropWhile (cs : List Char) : trimRight cs = cs.rdropWhile isBlank := rfl

theorem trimLeft_append {a : List Char} (h : allBlank a = true) (cs : List Char) :
    trimLeft (a ++ cs) = trimLeft cs :=
  List.dropWhile_append_of_pos (List.all_eq_true.1 h)

theorem trimLeft_cons {c : Char} (h : isBlank c = false) (cs : List Char) :
    trimLeft (c :: cs) = c :: cs := by
  simp [trimLeft, h]

theorem trimRight_cons {c : Char} (h : isBlank c = false) (cs : List Char) :
    trimRight (c :: cs) = c :: trimRight cs := by
  unfold trimRight
  rw [List.reverse_cons, List.dropWhile_append]
  split
  · next hnil => simp [List.isEmpty_iff.1 hnil, h]
  · rw [List.reverse_append, List.reverse_singleton, List.singleton_append]

theorem trim_trim (cs : List Char) : trim (trim cs) = trim cs := by
  unfold trim
  cases h : trimLeft cs with
  | nil => rfl
  | cons c rest =>
    have hc : isBlank c = false := by
      have := List.head?_dropWhile_not isBlank cs
      rw [← trimLeft, h] at this
      simpa using this
    rw [trimRight_cons hc, trimLeft_cons hc, trimRight_cons hc]
    exact congrArg (c :: ·) (List.rdropWhile_idempotent isBlank rest)

theorem any_head?_append {p : Char → Bool} {a : List Char} (h : a.head?.any p = true)
    (b : List Char) : (a ++ b).head?.any p = true := by
  cases a with
  | nil => cases h
  | cons c a => exact h

theorem any_getLast?_append {p : Char → Bool} (a : List Char) {b : List Char}
    (h : b.getLast?.any p = true) : (a ++ b).getLast?.any p = true := by
  rw [List.getLast?_append]
  cases hb : b.getLast? with
  | none =>
    rw [hb] at h
    cases h
  | some c =>
    rw [hb] at h
    exact h

/-- A text whose last character is no blank. -/
def endsVisible (cs : List Char) : Bool := cs.getLast?.any fun c => !isBlank c

theorem endsVisible_append (a : List Char) {b : List Char} (h : endsVisible b = true) :
    endsVisible (a ++ b) = true := any_getLast?_append a h

theorem exists_concat_of_endsVisible {cs : List Char} (h : endsVisible cs = true) :
    ∃ init c, cs = init ++ [c] ∧ isBlank c = false := by
  rcases List.eq_nil_or_concat cs with rfl | ⟨init, c, rfl⟩
  · cases h
  · refine ⟨init, c, List.concat_eq_append, ?_⟩
    simpa [endsVisible] using h

theorem trimRight_of_endsVisible {cs : List Char} (h : endsVisible cs = true) :
    trimRight cs = cs := by
  obtain ⟨init, c, rfl, hc⟩ := exists_concat_of_endsVisible h
  exact List.rdropWhile_concat_neg isBlank init c (by simp [hc])

theorem trimRight_append_of_allBlank {b : List Char} (hb : allBlank b = true) (a : List Char) :
    trimRight (a ++ b) = trimRight a := by
  have hall : ∀ c ∈ b.reverse, isBlank c = true := fun c hc =>
    List.all_eq_true.1 hb c (List.mem_reverse.1 hc)
  rw [trimRight, trimRight, List.reverse_append, List.dropWhile_append_of_pos hall]

/-- A text that trimming leaves as it is does not end in a blank. -/
theorem isBlank_eq_false_of_trimRight {init : List Char} {c : Char}
    (h : trimRight (init ++ [c]) = init ++ [c]) : isBlank c = false := by
  have hlast := List.rdropWhile_eq_self_iff.1 h (List.append_ne_nil_of_right_ne_nil _ (by simp))
  rwa [List.getLast_append_singleton, Bool.not_eq_true] at hlast

theorem trimRight_append {a b : List Char} (ha : endsVisible a = true) (hb : allBlank b = true) :
    trimRight (a ++ b) = a := by
  rw [trimRight_append_of_allBlank hb, trimRight_of_endsVisible ha]

theorem endsVisible_of_suffix {text rest : List Char} (h : endsVisible text = true)
    (hrest : rest <:+ text) (hne : rest ≠ []) : endsVisible rest = true := by
  obtain ⟨front, rfl⟩ := hrest
  rw [endsVisible, List.getLast?_append_of_ne_nil _ hne] at h
  exact h

theorem endsVisible_of_cons {c : Char} {cs : List Char} (hc : isBlank c = true)
    (h : endsVisible (c :: cs) = true) : endsVisible cs = true := by
  refine endsVisible_of_suffix h (List.suffix_cons c cs) ?_
  rintro rfl
  simp [endsVisible, hc] at h

theorem allBlank_eq_false {text : List Char} (h : endsVisible text = true) (more : List Char) :
    allBlank (text ++ more) = false := by
  obtain ⟨init, c, rfl, hc⟩ := exists_concat_of_endsVisible h
  simp [allBlank, hc]

theorem trimLeft_append_of_endsVisible {text : List Char} (h : endsVisible text = true)
    (more : List Char) : trimLeft (text ++ more) = trimLeft text ++ more := by
  unfold trimLeft
  rw [List.dropWhile_append, if_neg]
  intro hnil
  have hall : allBlank text = true := List.all_eq_true.2 fun c hc =>
    (List.dropWhile_eq_nil_iff.1 (List.isEmpty_iff.1 hnil)) c hc
  have hnot := allBlank_eq_false h []
  rw [List.append_nil, hall] at hnot
  cases hnot

/-- What trimming drops at the end are blanks. -/
theorem exists_trimRight_append (cs : List Char) :
    ∃ blanks, allBlank blanks = true ∧ cs = trimRight cs ++ blanks :=
  ⟨cs.rtakeWhile isBlank, List.all_eq_true.2 fun _ => List.mem_rtakeWhile_imp,
    List.rdropWhile_append_rtakeWhile.symm⟩

theorem trimRight_cons_trimRight (c : Char) (cs : List Char) :
    trimRight (c :: trimRight cs) = trimRight (c :: cs) := by
  obtain ⟨blanks, hblanks, hcs⟩ := exists_trimRight_append cs
  conv => rhs; rw [hcs, ← List.cons_append, trimRight_append_of_allBlank hblanks]

/-- A text whose first character is no blank. -/
def startsVisible (cs : List Char) : Bool := cs.head?.any fun c => !isBlank c

theorem startsVisible_append {a : List Char} (h : startsVisible a = true) (b : List Char) :
    startsVisible (a ++ b) = true := any_head?_append h b

theorem trimLeft_of_startsVisible {a : List Char} (h : startsVisible a = true) (b : List Char) :
    trimLeft (a ++ b) = a ++ b := by
  cases a with
  | nil => cases h
  | cons c a => exact trimLeft_cons (by simpa [startsVisible] using h) _

theorem trim_append_of_allBlank {b : List Char} (hb : allBlank b = true) (a : List Char) :
    trim (a ++ b) = trim a := by
  have hdrop : b.dropWhile isBlank = [] := List.dropWhile_eq_nil_iff.2 (List.all_eq_true.1 hb)
  unfold trim trimLeft
  rw [List.dropWhile_append, hdrop]
  split
  · next hnil => rw [List.isEmpty_iff.1 hnil]
  · rw [trimRight_append_of_allBlank hb]

/-- What trimming drops are blanks on either side. -/
theorem exists_trim_append (cs : List Char) :
    ∃ front back, allBlank front = true ∧ allBlank back = true ∧
      cs = front ++ (trim cs ++ back) := by
  obtain ⟨back, hback, hcs⟩ := exists_trimRight_append (trimLeft cs)
  refine ⟨cs.takeWhile isBlank, back, List.all_eq_true.2 fun c => List.mem_takeWhile_imp, hback, ?_⟩
  rw [trim, ← hcs]
  exact List.takeWhile_append_dropWhile.symm

/-- What trimming leaves has no blank at either end. -/
theorem startsVisible_trim {cs : List Char} (h : trim cs ≠ []) :
    startsVisible (trim cs) = true := by
  obtain ⟨blanks, -, hcs⟩ := exists_trimRight_append (trimLeft cs)
  have hhead := List.head?_dropWhile_not isBlank cs
  rw [← trimLeft, hcs, ← trim, List.head?_append_of_ne_nil _ h] at hhead
  unfold startsVisible
  cases htrim : trim cs with
  | nil => exact absurd htrim h
  | cons c rest =>
    rw [htrim] at hhead
    simpa using hhead

theorem endsVisible_trim {cs : List Char} (h : trim cs ≠ []) : endsVisible (trim cs) = true := by
  have hlast : isBlank ((trim cs).getLast h) = false :=
    Bool.eq_false_iff.2 (List.rdropWhile_last_not isBlank (trimLeft cs) h)
  rw [endsVisible, List.getLast?_eq_some_getLast h, Option.any_some, hlast]
  rfl

theorem trim_trimRight (cs : List Char) : trim (trimRight cs) = trim cs := by
  obtain ⟨blanks, hblanks, hcs⟩ := exists_trimRight_append cs
  conv => rhs; rw [hcs, trim_append_of_allBlank hblanks]

end SchemaTransfer.Unicode
