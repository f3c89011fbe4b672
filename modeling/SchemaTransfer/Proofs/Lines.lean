import Mathlib.Data.List.Basic
import SchemaTransfer.Text.Lines

/-!
# Cutting and joining

The pieces of a text between the occurrences of a character are those that hold none of them and
give the text when they are joined.
-/
namespace SchemaTransfer.Lines

variable {sep : Char}

theorem not_mem_of_mem_splitOn {cs piece : List Char} (h : piece ∈ List.splitOn sep cs) :
    sep ∉ piece := by
  induction cs generalizing piece with
  | nil =>
    rw [List.splitOn_nil, List.mem_singleton] at h
    simp [h]
  | cons c cs ih =>
    rw [List.splitOn_cons_eq_if_modifyHead] at h
    split at h
    · rcases List.mem_cons.1 h with rfl | h
      · exact List.not_mem_nil
      · exact ih h
    · next hc =>
      cases hpieces : List.splitOn sep cs with
      | nil => exact absurd hpieces (List.splitOn_ne_nil sep cs)
      | cons first pieces =>
        rw [hpieces] at ih
        rw [hpieces, List.modifyHead_cons, List.mem_cons] at h
        rcases h with rfl | h
        · exact List.not_mem_cons_of_ne_of_not_mem (fun heq => hc (beq_iff_eq.2 heq.symm))
            (ih List.mem_cons_self)
        · exact ih (List.mem_cons_of_mem _ h)

theorem splitOn_prepend {a : List Char} (h : sep ∉ a) (cs : List Char) :
    ∃ head tail, List.splitOn sep cs = head :: tail ∧
      List.splitOn sep (a ++ cs) = (a ++ head) :: tail := by
  induction a with
  | nil =>
    obtain ⟨head, tail, hpieces⟩ := List.exists_cons_of_ne_nil (List.splitOn_ne_nil sep cs)
    exact ⟨head, tail, hpieces, hpieces⟩
  | cons c a ih =>
    obtain ⟨hc, ha⟩ := List.ne_and_not_mem_of_not_mem_cons h
    obtain ⟨head, tail, hcs, hall⟩ := ih ha
    refine ⟨head, tail, hcs, ?_⟩
    rw [List.cons_append, List.splitOn_cons_eq_if_modifyHead,
      if_neg fun heq => hc (beq_iff_eq.1 heq).symm, hall, List.modifyHead_cons, List.cons_append]

/-- Behind the last end there is one more piece, which is empty. -/
theorem splitOn_flatMap {pieces : List (List Char)} (h : ∀ piece ∈ pieces, sep ∉ piece) :
    List.splitOn sep (pieces.flatMap (· ++ [sep])) = pieces ++ [[]] := by
  induction pieces with
  | nil => rfl
  | cons piece pieces ih =>
    obtain ⟨hpiece, hpieces⟩ := List.forall_mem_cons.1 h
    rw [List.flatMap_cons, List.append_assoc, List.singleton_append,
      List.splitOn_append_cons_self_of_not_mem hpiece, ih hpieces, List.cons_append]

/-- The pieces of a text that stand between the occurrences of `sep`. -/
structure IsCut (sep : Char) (text : List Char) (pieces : List (List Char)) : Prop where
  ne_nil : pieces ≠ []
  not_mem : ∀ piece ∈ pieces, sep ∉ piece
  joined : [sep].intercalate pieces = text

theorem isCut_iff {text : List Char} {pieces : List (List Char)} :
    IsCut sep text pieces ↔ pieces = List.splitOn sep text := by
  constructor
  · intro h
    rw [← h.joined, List.splitOn_intercalate sep h.not_mem h.ne_nil]
  · rintro rfl
    exact ⟨List.splitOn_ne_nil sep text, fun _ => not_mem_of_mem_splitOn,
      List.intercalate_splitOn sep⟩

/-- A beginning of a text ends ahead of a place or goes beyond it. -/
theorem prefix_append_cons {c : Char} {l a b : List Char} (h : l <+: a ++ c :: b) :
    l <+: a ∨ ∃ rest, l = a ++ c :: rest ∧ rest <+: b := by
  obtain ⟨more, hmore⟩ := h
  rcases List.append_eq_append_iff.1 hmore with ⟨behind, ha, -⟩ | ⟨behind, rfl, hb⟩
  · exact .inl ⟨behind, ha.symm⟩
  · cases behind with
    | nil => exact .inl ((List.append_nil a).symm ▸ List.prefix_rfl)
    | cons d rest =>
      obtain ⟨rfl, rfl⟩ := List.cons.inj hb
      exact .inr ⟨rest, rfl, List.prefix_append rest more⟩

/-- A last character that does not cut stands in the last piece. -/
theorem mem_getLast?_splitOn (sep : Char) {d : Char} (h : d ≠ sep) (cs : List Char) :
    ∀ piece ∈ (List.splitOn sep (cs ++ [d])).getLast?, d ∈ piece := by
  induction cs with
  | nil =>
    rw [List.nil_append, List.splitOn_eq_singleton (by simpa using h.symm)]
    simp
  | cons c cs ih =>
    rw [List.cons_append, List.splitOn_cons_eq_if_modifyHead]
    cases hpieces : List.splitOn sep (cs ++ [d]) with
    | nil => exact absurd hpieces (List.splitOn_ne_nil sep _)
    | cons piece pieces =>
      rw [hpieces] at ih
      split
      · rwa [List.getLast?_cons_cons]
      · rw [List.modifyHead_cons]
        cases pieces with
        | nil => simpa using .inr (by simpa using ih)
        | cons next pieces => rwa [List.getLast?_cons_cons] at ih ⊢

end SchemaTransfer.Lines
