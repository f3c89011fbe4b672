import SchemaTransfer.Command.Run
import SchemaTransfer.Proofs.Command.FileTree

/-!
# The files that actions change

An action has at most one target, the file that it gives a new content; messages only go to the
log. Files of a name that neither the log nor a target has stay as they are, in all directories,
and a file that is the target of a single text holds this text once all actions are performed.
-/
namespace SchemaTransfer.Command
open SchemaTransfer.Path

/-- The file that an action gives a new content; for messages this is not known before the log is
started. -/
def Action.target? : Action → Option String
  | .startLog path => some path
  | .write path _ => some path
  | .makeDirectory _ => none
  | .makeDirectories _ => none
  | .say _ _ => none

/-- The path is that of a file of another name. -/
def IsOther (name path : String) : Prop :=
  ∃ directory other, path = child directory other ∧ IsName other ∧ other ≠ name

theorem IsOther.place_ne {name path : String} (h : IsOther name path) {t : FileTree} {p : Place}
    (hp : t.locate path = .ok p) (q : Place) : q ++ [name] ≠ p := by
  obtain ⟨directory, other, rfl, hother, hne⟩ := h
  obtain ⟨r, -, rfl⟩ := FileTree.locate_child hother hp
  intro heq
  exact hne (List.append_singleton_inj.1 heq).2.symm

/-- What the action writes goes to files of other names. -/
def Action.Avoids (name : String) (a : Action) : Prop := ∀ path ∈ a.target?, IsOther name path

theorem avoids_say (name : String) (level : Level) (text : String) :
    (Action.say level text).Avoids name := nofun

/-- The messages are kept in a file of another name. -/
def World.Apart (w : World) (name : String) : Prop := ∀ log ∈ w.log, IsOther name log.path

section

variable (now : Moment) {w : World} {name : String}

theorem change_extends {f : FileTree → World} (hf : ∀ t, (f t).files = t) {path : String}
    {content : Option Content → Content} :
    w.files.Extends (w.change f (w.files.put path content)).1.files := by
  unfold World.change
  split
  · next h =>
    rw [hf]
    exact (FileTree.put_spec h).1
  · exact .refl w.files

theorem change_file? {f : FileTree → World} (hf : ∀ t, (f t).files = t) {path : String}
    (hpath : IsOther name path) {content : Option Content → Content} (q : Place) :
    (w.change f (w.files.put path content)).1.files.file? (q ++ [name]) =
      w.files.file? (q ++ [name]) := by
  unfold World.change
  split
  · next files h =>
    obtain ⟨-, p, hp, -, hother⟩ := FileTree.put_spec h
    rw [hf]
    exact hother _ (hpath.place_ne hp q)
  · rfl

theorem perform_extends (w : World) (a : Action) :
    w.files.Extends (a.perform now w).1.files := by
  cases a with
  | makeDirectory path => exact (w.files.grows_makeDirectory path).isExtension
  | makeDirectories path => exact (w.files.grows_makeDirectories path).isExtension
  | startLog path => exact change_extends fun _ => rfl
  | say level text =>
    rw [Action.perform, World.say]
    split
    · exact .refl w.files
    · exact change_extends fun _ => rfl
  | write path text => exact change_extends fun _ => rfl

/-- Files whose name is not that of the target stay as they are, and none of them becomes the
log. -/
theorem perform_frame {a : Action} (hw : w.Apart name) (ha : a.Avoids name) :
    (a.perform now w).1.Apart name ∧
      ∀ q, (a.perform now w).1.files.file? (q ++ [name]) = w.files.file? (q ++ [name]) := by
  cases a with
  | makeDirectory path => exact ⟨hw, fun q => (w.files.grows_makeDirectory path).file? _⟩
  | makeDirectories path => exact ⟨hw, fun q => (w.files.grows_makeDirectories path).file? _⟩
  | startLog path =>
    have hpath : IsOther name path := ha path rfl
    refine ⟨?_, fun q => change_file? (fun _ => rfl) hpath q⟩
    rw [Action.perform, World.startLog]
    unfold World.change
    split
    · rintro log ⟨⟩
      exact hpath
    · exact hw
  | say level text =>
    rw [Action.perform, World.say]
    split
    · exact ⟨hw, fun _ => rfl⟩
    · next log hlog =>
      refine ⟨?_, fun q => change_file? (fun _ => rfl) (hw log hlog) q⟩
      unfold World.change
      split
      · rintro started ⟨⟩
        exact hw log hlog
      · exact hw
  | write path text =>
    refine ⟨?_, fun q => change_file? (fun _ => rfl) (ha path rfl) q⟩
    rw [Action.perform]
    unfold World.change
    split
    · exact hw
    · exact hw

theorem perform_write (w : World) (path text : String) :
    ((Action.write path text).perform now w).1.log = w.log ∧
      (((Action.write path text).perform now w).2 = none →
        ((Action.write path text).perform now w).1.files.content? path = some (.text text)) := by
  rw [Action.perform]
  unfold World.change
  split
  · next files h =>
    obtain ⟨-, p, hp, hfile, -⟩ := FileTree.put_spec h
    exact ⟨rfl, fun _ => FileTree.content?_eq_some.2 ⟨p, hp, hfile⟩⟩
  · exact ⟨rfl, nofun⟩

end

section

variable (now : Moment) {w : World} {actions : List Action} {directory name text : String}

/-- The actions may end with a failure. -/
theorem performAll_frame (hw : w.Apart name) (hactions : ∀ a ∈ actions, a.Avoids name) :
    (performAll now w actions).1.Apart name ∧
      ∀ q, (performAll now w actions).1.files.file? (q ++ [name]) =
        w.files.file? (q ++ [name]) := by
  induction actions generalizing w with
  | nil => exact ⟨hw, fun _ => rfl⟩
  | cons a rest ih =>
    obtain ⟨ha, hactions⟩ := List.forall_mem_cons.1 hactions
    obtain ⟨hlast, hsame⟩ := perform_frame now hw ha
    unfold performAll
    split
    · next h =>
      rw [h] at hlast hsame
      obtain ⟨hrest, hfiles⟩ := ih hlast hactions
      exact ⟨hrest, fun q => (hfiles q).trans (hsame q)⟩
    · exact ⟨hlast, hsame⟩

/-- The action writes the text to the file, or no file of this name. -/
def WritesOnly (directory name text : String) (a : Action) : Prop :=
  a = .write (child directory name) text ∨ a.Avoids name

/-- A text stays in its file if nothing else is written there. -/
theorem perform_keeps {a : Action} (hname : IsName name) (hw : w.Apart name)
    (ha : WritesOnly directory name text a)
    (hfile : w.files.content? (child directory name) = some (.text text)) :
    (a.perform now w).1.Apart name ∧ ((a.perform now w).2 = none →
      (a.perform now w).1.files.content? (child directory name) = some (.text text)) := by
  rcases ha with rfl | ha
  · obtain ⟨hlog, hwritten⟩ := perform_write now w (child directory name) text
    exact ⟨fun log h => hw log (hlog ▸ h), hwritten⟩
  · obtain ⟨hlast, hsame⟩ := perform_frame now hw ha
    refine ⟨hlast, fun _ => ?_⟩
    obtain ⟨p, hp, hheld⟩ := FileTree.content?_eq_some.1 hfile
    obtain ⟨q, -, rfl⟩ := FileTree.locate_child hname hp
    exact FileTree.content?_eq_some.2
      ⟨_, (perform_extends now w a).locate hp, (hsame q).trans hheld⟩

theorem performAll_keeps (hname : IsName name) (hw : w.Apart name)
    (honly : ∀ a ∈ actions, WritesOnly directory name text a)
    (hfile : w.files.content? (child directory name) = some (.text text))
    (hdone : (performAll now w actions).2 = none) :
    (performAll now w actions).1.files.content? (child directory name) = some (.text text) := by
  induction actions generalizing w with
  | nil => exact hfile
  | cons a rest ih =>
    obtain ⟨ha, hrest⟩ := List.forall_mem_cons.1 honly
    obtain ⟨hlast, hkept⟩ := perform_keeps now hname hw ha hfile
    unfold performAll at hdone ⊢
    split at hdone
    · next h =>
      rw [h] at hlast hkept
      exact ih hlast hrest (hkept rfl) hdone
    · next hfailed => exact (hfailed _ (Prod.ext rfl hdone)).elim

/-- A text that is written, and no other to a file of the same name, is there in the end. -/
theorem performAll_written (hname : IsName name) (hw : w.Apart name)
    (hmem : .write (child directory name) text ∈ actions)
    (honly : ∀ a ∈ actions, WritesOnly directory name text a)
    (hdone : (performAll now w actions).2 = none) :
    (performAll now w actions).1.files.content? (child directory name) = some (.text text) := by
  induction actions generalizing w with
  | nil => exact absurd hmem List.not_mem_nil
  | cons a rest ih =>
    obtain ⟨ha, hrest⟩ := List.forall_mem_cons.1 honly
    unfold performAll at hdone ⊢
    split at hdone
    · next w' h =>
      rcases ha with rfl | ha
      · obtain ⟨hlog, hwritten⟩ := perform_write now w (child directory name) text
        rw [h] at hlog hwritten
        have hlast : w'.Apart name := fun log hin => hw log (hlog ▸ hin)
        exact performAll_keeps now hname hlast hrest (hwritten rfl) hdone
      · obtain ⟨hlast, -⟩ := perform_frame now hw ha
        rw [h] at hlast
        rcases List.mem_cons.1 hmem with rfl | hmem
        · obtain ⟨_, _, hpath, hother, hne⟩ := ha _ rfl
          have hparts := congrArg parts hpath
          rw [parts_child hname, parts_child hother] at hparts
          exact absurd (List.append_singleton_inj.1 hparts).2.symm hne
        · exact ih hlast hmem hrest hdone
    · next hfailed => exact (hfailed _ (Prod.ext rfl hdone)).elim

end

end SchemaTransfer.Command
