import Mathlib.Data.List.Basic
import SchemaTransfer.Command.FileTree
import SchemaTransfer.Proofs.Command.Path
import SchemaTransfer.Proofs.Except

/-!
# Changes of a tree of files

Directories stay once they are there, so a path that leads somewhere leads there ever after. Making
directories leaves all files alone, and giving one file a content leaves all other places alone. In
whatever way the directory of a file is told, the place of the file ends in its name.
-/
namespace SchemaTransfer.FileTree
open SchemaTransfer.Path

variable {t t' t'' : FileTree}

theorem node?_insert_self (t : FileTree) {p : Place} (hp : p ≠ []) (n : Node) :
    (t.insert p n).node? p = some n := by
  rw [node?, if_neg hp, insert, List.lookup_cons_self]

theorem node?_insert_of_ne (t : FileTree) {p q : Place} (h : q ≠ p) (n : Node) :
    (t.insert p n).node? q = t.node? q := by
  unfold node? insert
  rw [List.lookup_cons, beq_eq_false_iff_ne.2 h]

theorem file?_eq_some {p : Place} {content : Content} :
    t.file? p = some content ↔ t.node? p = some (.file content) := by
  unfold file?
  split
  · next h => simp [h]
  · next h => exact iff_of_false nofun (h content)

/-- All directories of the one tree are in the other. -/
structure Extends (t t' : FileTree) : Prop where
  workingDirectory : t'.workingDirectory = t.workingDirectory
  directory : ∀ p, t.node? p = some .directory → t'.node? p = some .directory

namespace Extends

theorem refl (t : FileTree) : t.Extends t := ⟨rfl, fun _ h => h⟩

theorem walk (h : t.Extends t') {p q : Place} {parts : List String}
    (hwalk : t.walk p parts = .ok q) : t'.walk p parts = .ok q := by
  induction parts generalizing p with
  | nil => exact hwalk
  | cons part parts ih =>
    rw [FileTree.walk] at hwalk
    split at hwalk
    · next hp =>
      rw [FileTree.walk, h.directory p hp]
      exact ih hwalk
    · cases hwalk
    · cases hwalk

theorem locate (h : t.Extends t') {path : String} {q : Place} (hlocate : t.locate path = .ok q) :
    t'.locate path = .ok q := by
  unfold FileTree.locate follow start at hlocate ⊢
  rw [h.workingDirectory]
  split at hlocate
  · cases hlocate
  · next hnull =>
    rw [if_neg hnull]
    exact h.walk hlocate

end Extends

theorem walk_append (t : FileTree) (p : Place) (xs ys : List String) :
    t.walk p (xs ++ ys) = t.walk p xs >>= fun q => t.walk q ys := by
  induction xs generalizing p with
  | nil => rfl
  | cons x xs ih =>
    rw [List.cons_append, walk, walk]
    split
    · exact ih _
    · rfl
    · rfl

/-- The place of a file ends in the name of the file. -/
theorem locate_child {directory name : String} (hname : IsName name) {p : Place}
    (h : t.locate (child directory name) = .ok p) :
    ∃ q, t.locate directory = .ok q ∧ p = q ++ [name] := by
  have hstart : t.start (child directory name) = t.start directory := by
    rw [start, isAbsolute_child hname, start]
  unfold locate follow at h ⊢
  rw [hstart, parts_child hname, List.any_append] at h
  split at h
  · cases h
  · next hnull =>
    rw [Bool.or_eq_true, not_or] at hnull
    rw [if_neg hnull.1]
    rw [walk_append] at h
    obtain ⟨q, hq, hlast⟩ := bind_eq_ok h
    rw [walk] at hlast
    split at hlast
    · refine ⟨q, hq, ?_⟩
      rw [walk, Place.step, if_neg hname.notPoint, if_neg hname.notPoints] at hlast
      exact (Except.ok.inj hlast).symm
    · cases hlast
    · cases hlast

/-- Nothing has changed but that there are directories where nothing was. -/
structure Grows (t t' : FileTree) : Prop where
  workingDirectory : t'.workingDirectory = t.workingDirectory
  node : ∀ p, t'.node? p = t.node? p ∨ t.node? p = none ∧ t'.node? p = some .directory

namespace Grows

theorem refl (t : FileTree) : t.Grows t := ⟨rfl, fun _ => .inl rfl⟩

theorem trans (h : t.Grows t') (h' : t'.Grows t'') : t.Grows t'' := by
  refine ⟨h'.workingDirectory.trans h.workingDirectory, fun p => ?_⟩
  rcases h.node p, h'.node p with ⟨hsame | ⟨hnone, hnew⟩, hsame' | ⟨hnone', hnew'⟩⟩
  · exact .inl (hsame'.trans hsame)
  · exact .inr ⟨hsame.symm.trans hnone', hnew'⟩
  · exact .inr ⟨hnone, hsame'.trans hnew⟩
  · exact .inr ⟨hnone, hnew'⟩

theorem isExtension (h : t.Grows t') : t.Extends t' := by
  refine ⟨h.workingDirectory, fun p hp => ?_⟩
  rcases h.node p with hsame | ⟨-, hnew⟩
  · rw [hsame, hp]
  · exact hnew

theorem file? (h : t.Grows t') (p : Place) : t'.file? p = t.file? p := by
  unfold FileTree.file?
  rcases h.node p with hsame | ⟨hnone, hnew⟩
  · rw [hsame]
  · rw [hnone, hnew]

end Grows

section

variable (start : Place)

theorem grows_makeOne {parts : List String} (h : t.makeOne start parts = .ok t') : t.Grows t' := by
  unfold makeOne at h
  split at h
  · cases h
  · next p _ =>
    split at h
    · cases h
    · next hp =>
      have hnone : t.node? p = none := Option.not_isSome_iff_eq_none.1 hp
      have hne : p ≠ [] := by
        rintro rfl
        cases hnone
      rw [← Except.ok.inj h]
      refine ⟨rfl, fun q => ?_⟩
      by_cases hq : q = p
      · rw [hq]
        exact .inr ⟨hnone, t.node?_insert_self hne .directory⟩
      · exact .inl (t.node?_insert_of_ne hq .directory)

theorem grows_makeLast (t : FileTree) (parts : List String) :
    t.Grows (t.makeLast start parts).1 := by
  unfold makeLast
  split
  · next h => exact grows_makeOne start h
  · exact .refl t

theorem grows_makeWithParents (t : FileTree) (parts : List String) :
    t.Grows (t.makeWithParents start parts).1 := by
  induction parts with
  | nil => exact grows_makeLast start t []
  | cons part above ih =>
    rw [makeWithParents]
    split
    · split
      · next h =>
        rw [h] at ih
        exact ih.trans (grows_makeLast start _ _)
      · exact ih
    · exact grows_makeLast start t _

theorem grows_makeAll (t : FileTree) (parts : List String) :
    t.Grows (t.makeAll start parts).1 := by
  have hlast {t t' : FileTree} (h : t.Grows t') (part : String) (parts : List String) :
      t.Grows (if part = "." then (t', none) else t'.makeLast start parts).1 := by
    split
    · exact h
    · exact h.trans (grows_makeLast start t' parts)
  induction parts with
  | nil => exact grows_makeLast start t []
  | cons part above ih =>
    rw [makeAll]
    split
    · exact grows_makeLast start t _
    · split
      · next h =>
        rw [h] at ih
        exact hlast ih part _
      · next h =>
        rw [h] at ih
        exact hlast ih part _
      · exact ih

end

theorem grows_makeDirectory (t : FileTree) (path : String) : t.Grows (t.makeDirectory path).1 :=
  grows_makeWithParents (t.start path) t (parts path).reverse

theorem grows_makeDirectories (t : FileTree) (path : String) :
    t.Grows (t.makeDirectories path).1 := by
  unfold makeDirectories
  split
  · exact .refl t
  · exact grows_makeAll (t.start path) t (pieces path).reverse

section

variable {path : String} {content : Option Content → Content}

theorem put_eq_ok (h : t.put path content = .ok t') :
    ∃ p, t.locate path = .ok p ∧ t.node? p ≠ some .directory ∧
      t' = t.insert p (.file (content (t.file? p))) := by
  unfold put at h
  split at h
  · cases h
  · next p hp =>
    split at h
    · cases h
    · next hnot => exact ⟨p, hp, hnot, (Except.ok.inj h).symm⟩

/-- A file gets the content, where its path leads then and ever after. -/
theorem put_spec (h : t.put path content = .ok t') :
    t.Extends t' ∧ ∃ p, t'.locate path = .ok p ∧ t'.file? p = some (content (t.file? p)) ∧
      ∀ q, q ≠ p → t'.file? q = t.file? q := by
  obtain ⟨p, hp, hnot, rfl⟩ := put_eq_ok h
  have hne : p ≠ [] := by
    rintro rfl
    exact hnot rfl
  have hextends : t.Extends (t.insert p (.file (content (t.file? p)))) := by
    refine ⟨rfl, fun q hq => ?_⟩
    rw [t.node?_insert_of_ne (fun h : q = p => hnot (h ▸ hq)), hq]
  refine ⟨hextends, p, hextends.locate hp, ?_, fun q hq => ?_⟩
  · exact file?_eq_some.2 (t.node?_insert_self hne _)
  · rw [file?, t.node?_insert_of_ne hq, file?]

end

/-- What the file of a path holds. -/
def content? (t : FileTree) (path : String) : Option Content :=
  match t.locate path with
  | .ok p => t.file? p
  | .error _ => none

theorem content?_eq_some {path : String} {content : Content} :
    t.content? path = some content ↔ ∃ p, t.locate path = .ok p ∧ t.file? p = some content := by
  unfold content?
  split
  · next p hp => simp [hp]
  · next problem hp => simp [hp]

end SchemaTransfer.FileTree
