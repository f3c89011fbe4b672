import SchemaTransfer.Proofs.Command.Targets

/-!
# Actions that succeed

A directory that is there can be made again, and a file can be written unless a directory stands in
its place. No such action takes this away from another one, so all of them succeed.
-/
namespace SchemaTransfer

namespace FileTree
open SchemaTransfer.Path

variable {t t' : FileTree} {path : String}

/-- The path leads to a directory. -/
def IsDirectory (t : FileTree) (path : String) : Prop :=
  ∃ p, t.locate path = .ok p ∧ t.node? p = some .directory

/-- The path leads to a file or to where one can be. -/
def IsWritable (t : FileTree) (path : String) : Prop :=
  ∃ p, t.locate path = .ok p ∧ t.node? p ≠ some .directory

theorem Extends.isDirectory (h : t.Extends t') (hdir : t.IsDirectory path) :
    t'.IsDirectory path := by
  obtain ⟨p, hp, hnode⟩ := hdir
  exact ⟨p, h.locate hp, h.directory p hnode⟩

section

variable {content : Option Content → Content}

theorem exists_put (h : t.IsWritable path) : ∃ t', t.put path content = .ok t' := by
  obtain ⟨p, hp, hnot⟩ := h
  unfold put
  rw [hp]
  dsimp only
  split
  · next hnode => exact absurd hnode hnot
  · exact ⟨_, rfl⟩

theorem IsWritable.put {other : String} (hother : t.IsWritable other)
    (h : t.put path content = .ok t') : t'.IsWritable other := by
  obtain ⟨q, hq, hnode⟩ := hother
  refine ⟨q, (put_spec h).1.locate hq, ?_⟩
  obtain ⟨p, -, hnot, rfl⟩ := put_eq_ok h
  by_cases heq : q = p
  · subst heq
    have hne : q ≠ [] := by
      rintro rfl
      exact hnot rfl
    rw [t.node?_insert_self hne]
    nofun
  · rwa [t.node?_insert_of_ne heq]

end

/-- All that is passed on the way to a directory are directories. -/
theorem node?_of_walk {p q : Place} {parts : List String} (h : t.walk p parts = .ok q)
    (hq : t.node? q = some .directory) : t.node? p = some .directory := by
  cases parts with
  | nil => rwa [Except.ok.inj h]
  | cons part parts =>
    rw [walk] at h
    split at h
    · assumption
    · cases h
    · cases h

/-- Points may be added on the way to a directory. -/
theorem walk_of_filter {p q : Place} {parts : List String}
    (h : t.walk p (parts.filter (· ≠ ".")) = .ok q) (hq : t.node? q = some .directory) :
    t.walk p parts = .ok q := by
  induction parts generalizing p with
  | nil => exact h
  | cons part parts ih =>
    rw [walk, node?_of_walk h hq]
    by_cases hpart : part = "."
    · rw [List.filter_cons_of_neg (by simpa using hpart)] at h
      rw [Place.step, if_pos hpart]
      exact ih h
    · rw [List.filter_cons_of_pos (by simpa using hpart)] at h
      have hp := node?_of_walk h hq
      rw [walk, hp] at h
      exact ih h

section

variable {start : Place}

theorem nodeAt?_eq_directory {parts : List String} :
    t.nodeAt? start parts = some .directory ↔
      ∃ p, t.follow start parts = .ok p ∧ t.node? p = some .directory := by
  unfold nodeAt?
  cases t.follow start parts with
  | error problem => simp [Except.toOption]
  | ok p => simp [Except.toOption]

theorem makeOne_of_directory {parts : List String}
    (h : t.nodeAt? start parts = some .directory) : t.makeOne start parts = .error .exists := by
  obtain ⟨p, hp, hnode⟩ := nodeAt?_eq_directory.1 h
  rw [makeOne, hp]
  dsimp only
  rw [hnode]
  rfl

theorem makeLast_of_directory {parts : List String}
    (h : t.nodeAt? start parts = some .directory) : t.makeLast start parts = (t, none) := by
  rw [makeLast, makeOne_of_directory h]
  dsimp only
  rw [if_pos h]

theorem makeWithParents_of_directory {parts : List String}
    (h : t.nodeAt? start parts.reverse = some .directory) :
    t.makeWithParents start parts = (t, none) := by
  cases parts with
  | nil => exact makeLast_of_directory h
  | cons part above =>
    rw [makeWithParents, makeOne_of_directory h]
    exact makeLast_of_directory h

theorem nodeAt?_of_append {xs ys : List String}
    (h : t.nodeAt? start (xs ++ ys) = some .directory) :
    t.nodeAt? start xs = some .directory := by
  obtain ⟨q, hq, hnode⟩ := nodeAt?_eq_directory.1 h
  unfold follow at hq
  split at hq
  · cases hq
  · next hnull =>
    rw [List.any_append, Bool.or_eq_true, not_or] at hnull
    rw [walk_append] at hq
    obtain ⟨p, hp, hrest⟩ := bind_eq_ok hq
    refine nodeAt?_eq_directory.2 ⟨p, ?_, node?_of_walk hrest hnode⟩
    rw [follow, if_neg hnull.1, hp]

theorem makeAll_of_directory {parts : List String}
    (h : t.nodeAt? start parts.reverse = some .directory) :
    t.makeAll start parts = (t, none) := by
  cases parts with
  | nil => exact makeLast_of_directory h
  | cons part above =>
    have habove : t.nodeAt? start above.reverse = some .directory := by
      rw [List.reverse_cons] at h
      exact nodeAt?_of_append h
    rw [makeAll, habove]
    exact makeLast_of_directory h

end

theorem IsDirectory.makeDirectory (h : t.IsDirectory path) :
    t.makeDirectory path = (t, none) := by
  have hnode : t.nodeAt? (t.start path) (parts path) = some .directory :=
    nodeAt?_eq_directory.2 h
  rw [← List.reverse_reverse (parts path)] at hnode
  rw [FileTree.makeDirectory, makeWithParents_of_directory hnode]
  rfl

theorem IsDirectory.makeDirectories (h : t.IsDirectory path) (hne : path ≠ "") :
    t.makeDirectories path = (t, none) := by
  obtain ⟨p, hp, hnode⟩ := h
  have hpieces : t.nodeAt? (t.start path) (pieces path).reverse.reverse = some .directory := by
    rw [List.reverse_reverse]
    refine nodeAt?_eq_directory.2 ⟨p, ?_, hnode⟩
    unfold locate follow at hp
    split at hp
    · cases hp
    · next hnull =>
      rw [follow, if_neg ?_, walk_of_filter hp hnode]
      intro hnull'
      obtain ⟨part, hmem, hzero⟩ := List.any_eq_true.1 hnull'
      refine hnull (List.any_eq_true.2 ⟨part, List.mem_filter.2 ⟨hmem, ?_⟩, hzero⟩)
      rw [decide_eq_true_eq]
      rintro rfl
      exact absurd hzero (by decide)
  rw [FileTree.makeDirectories, if_neg hne, makeAll_of_directory hpieces]
  rfl

end FileTree

namespace Command

/-- Nothing keeps the action from being performed. -/
def World.Allows (w : World) : Action → Prop
  | .makeDirectory path => w.files.IsDirectory path
  | .makeDirectories path => path ≠ "" ∧ w.files.IsDirectory path
  | .startLog path => w.files.IsWritable path
  | .say _ _ => ∀ log ∈ w.log, w.files.IsWritable log.path
  | .write path _ => w.files.IsWritable path

section

variable (now : Moment) {w : World}

/-- A change that succeeds takes nothing away, as long as messages go to where they went or to the
file that was changed. -/
theorem change_allows {f : FileTree → World} (hf : ∀ t, (f t).files = t) {path : String}
    (hlog : ∀ t, ∀ log ∈ (f t).log, log.path = path ∨ ∃ old ∈ w.log, old.path = log.path)
    {content : Option Content → Content} (hpath : w.files.IsWritable path) :
    (w.change f (w.files.put path content)).2 = none ∧ ∀ a, w.Allows a →
      (w.change f (w.files.put path content)).1.Allows a := by
  obtain ⟨t, ht⟩ := FileTree.exists_put hpath
  have hextends := (FileTree.put_spec ht).1
  rw [ht]
  refine ⟨rfl, fun a ha => ?_⟩
  rw [World.change]
  cases a with
  | makeDirectory other =>
    rw [World.Allows, hf]
    exact hextends.isDirectory ha
  | makeDirectories other =>
    rw [World.Allows, hf]
    exact ⟨ha.1, hextends.isDirectory ha.2⟩
  | startLog other =>
    rw [World.Allows, hf]
    exact FileTree.IsWritable.put ha ht
  | say level text =>
    intro log hmem
    rw [hf]
    rcases hlog t log hmem with heq | ⟨old, hold, heq⟩
    · rw [heq]
      exact hpath.put ht
    · rw [← heq]
      exact (ha old hold).put ht
  | write other text =>
    rw [World.Allows, hf]
    exact FileTree.IsWritable.put ha ht

theorem perform_allows {a : Action} (ha : w.Allows a) :
    (a.perform now w).2 = none ∧ ∀ b, w.Allows b → (a.perform now w).1.Allows b := by
  cases a with
  | makeDirectory path =>
    rw [Action.perform, FileTree.IsDirectory.makeDirectory ha]
    exact ⟨rfl, fun _ hb => hb⟩
  | makeDirectories path =>
    rw [Action.perform, ha.2.makeDirectories ha.1]
    exact ⟨rfl, fun _ hb => hb⟩
  | startLog path =>
    refine change_allows (fun _ => rfl) (fun _ log hlog => .inl ?_) ha
    rw [← Option.some.inj hlog]
  | say level text =>
    rw [Action.perform, World.say]
    split
    · exact ⟨rfl, fun _ hb => hb⟩
    · next log hlog =>
      refine change_allows (fun _ => rfl) (fun _ new hnew => .inl ?_) (ha log hlog)
      rw [← Option.some.inj hnew]
  | write path text =>
    exact change_allows (f := fun files => { w with files }) (fun _ => rfl)
      (fun _ log hlog => .inr ⟨log, hlog, rfl⟩) ha

theorem performAll_allows {actions : List Action} (hactions : ∀ a ∈ actions, w.Allows a) :
    (performAll now w actions).2 = none ∧
      ∀ b, w.Allows b → (performAll now w actions).1.Allows b := by
  induction actions generalizing w with
  | nil => exact ⟨rfl, fun _ hb => hb⟩
  | cons a rest ih =>
    obtain ⟨ha, hrest⟩ := List.forall_mem_cons.1 hactions
    obtain ⟨hdone, hkept⟩ := perform_allows now ha
    unfold performAll
    split
    · next h =>
      rw [h] at hkept
      obtain ⟨hlast, hall⟩ := ih fun b hb => hkept b (hrest b hb)
      exact ⟨hlast, fun b hb => hall b (hkept b hb)⟩
    · next hfailed => exact (hfailed _ (Prod.ext rfl hdone)).elim

end

end Command

end SchemaTransfer
