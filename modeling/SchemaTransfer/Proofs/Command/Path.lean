import SchemaTransfer.Command.Path
import SchemaTransfer.Proofs.Lines

/-!
# Parts of paths

The path of a file in a directory has the parts of the directory and behind them its name, and it
starts where the path of the directory does.
-/
namespace SchemaTransfer.Path
open Lines

/-- A text that can be a part of a path in its shortest form. -/
structure IsPart (n : String) : Prop where
  nonempty : n ≠ ""
  notPoint : n ≠ "."
  slashFree : '/' ∉ n.toList

/-- A text that can be the name of a file. -/
structure IsName (n : String) : Prop extends IsPart n where
  notPoints : n ≠ ".."

theorem parts_of_isPart {n : String} (h : IsPart n) : parts n = [n] := by
  simp [parts, pieces, List.splitOn_eq_singleton h.slashFree, h.nonempty, h.notPoint]

theorem isPart_of_mem_parts {path n : String} (h : n ∈ parts path) : IsPart n := by
  obtain ⟨hpiece, hpoint⟩ := List.mem_filter.1 h
  obtain ⟨hmem, hempty⟩ := List.mem_filter.1 hpiece
  obtain ⟨cs, hcs, rfl⟩ := List.mem_map.1 hmem
  refine ⟨of_decide_eq_true hempty, of_decide_eq_true hpoint, ?_⟩
  rw [String.toList_ofList]
  exact not_mem_of_mem_splitOn hcs

theorem parts_append (a b : String) : parts (a ++ "/" ++ b) = parts a ++ parts b := by
  have hcs : (a ++ "/" ++ b).toList = a.toList ++ '/' :: b.toList := by simp
  rw [parts, pieces, hcs, List.splitOn_append_cons_self, List.map_append, List.filter_append,
    List.filter_append]
  rfl

@[simp] theorem parts_empty : parts "" = [] := by decide

theorem root_cases (path : String) :
    root path = "" ∧ isAbsolute path = false ∨
      (root path = "/" ∨ root path = "//") ∧ isAbsolute path = true := by
  unfold root isAbsolute
  split
  · next h => exact .inr ⟨.inl rfl, by simp [h]⟩
  · next h => exact .inr ⟨.inr rfl, by simp [h]⟩
  · next h => exact .inr ⟨.inl rfl, by simp [h]⟩
  · next h =>
    refine .inl ⟨rfl, decide_eq_false fun hhead => ?_⟩
    obtain ⟨cs, hcs⟩ := List.head?_eq_some_iff.1 hhead
    exact h cs hcs

theorem parts_root_append (path rest : String) : parts (root path ++ rest) = parts rest := by
  have hslash (rest : String) : parts ("/" ++ rest) = parts rest := parts_append "" rest
  rcases root_cases path with ⟨h, -⟩ | ⟨h | h, -⟩
  · rw [h, String.empty_append]
  · rw [h, hslash]
  · have hboth : "//" ++ rest = "/" ++ ("/" ++ rest) := by
      rw [← String.append_assoc]
      rfl
    rw [h, hboth, hslash, hslash]

theorem parts_intercalate {ps : List String} (h : ∀ p ∈ ps, IsPart p) :
    parts ("/".intercalate ps) = ps := by
  induction ps with
  | nil => rw [String.intercalate_nil, parts_empty]
  | cons p ps ih =>
    obtain ⟨hp, hps⟩ := List.forall_mem_cons.1 h
    cases ps with
    | nil => rw [String.intercalate_singleton, parts_of_isPart hp]
    | cons q ps =>
      rw [String.intercalate_cons_cons, parts_append, parts_of_isPart hp, ih hps,
        List.singleton_append]

/-- No text of parts starts with a slash. -/
theorem head?_intercalate {ps : List String} (h : ∀ p ∈ ps, IsPart p) :
    ("/".intercalate ps).toList.head? ≠ some '/' := by
  cases ps with
  | nil => decide
  | cons p ps =>
    have hp := h p List.mem_cons_self
    have hne : p.toList ≠ [] := fun hnil => hp.nonempty (String.toList_eq_nil_iff.1 hnil)
    have hhead : p.toList.head? ≠ some '/' := fun hslash =>
      hp.slashFree (List.mem_of_mem_head? hslash)
    cases ps with
    | nil => rwa [String.intercalate_singleton]
    | cons q ps =>
      rwa [String.intercalate_cons_cons, String.append_assoc, String.toList_append,
        List.head?_append_of_ne_nil _ hne]

section

variable {name : String} (h : IsName name) (directory : String)

include h

theorem isPart_of_mem_concat : ∀ p ∈ parts directory ++ [name], IsPart p :=
  List.forall_mem_append.2 ⟨fun _ => isPart_of_mem_parts, List.forall_mem_singleton.2 h.toIsPart⟩

theorem parts_child : parts (child directory name) = parts directory ++ [name] := by
  rw [child, parts_root_append, parts_intercalate (isPart_of_mem_concat h directory)]

theorem isAbsolute_child : isAbsolute (child directory name) = isAbsolute directory := by
  rcases root_cases directory with ⟨hroot, habsolute⟩ | ⟨hroot | hroot, habsolute⟩
  · rw [habsolute, child, hroot, String.empty_append]
    exact decide_eq_false (head?_intercalate (isPart_of_mem_concat h directory))
  · rw [habsolute, isAbsolute, child, hroot, String.toList_append]
    rfl
  · rw [habsolute, isAbsolute, child, hroot, String.toList_append]
    rfl

end

end SchemaTransfer.Path
