import Mathlib.Data.List.Lemmas
import SchemaTransfer.Proofs.Catalog.Object

/-!
# Edits of a catalog

An edit concerns one object and depends on nothing but what is held of it. It leaves the other
objects as they are, so edits of different objects can be made in either order.
-/
namespace SchemaTransfer

/-- A change to what is held of one object, or a refusal. -/
structure Edit where
  object : Object
  change : object.Content → Option object.Content

namespace Catalog

variable {c d : Catalog}

def edit (c : Catalog) (e : Edit) : Option Catalog :=
  (e.change (c.content e.object)).map (c.put e.object)

def editAll (c : Catalog) (edits : List Edit) : Option Catalog := edits.foldlM edit c

theorem editAll_cons (c : Catalog) (e : Edit) (edits : List Edit) :
    c.editAll (e :: edits) = (c.edit e).bind fun d => d.editAll edits := rfl

theorem editAll_singleton (c : Catalog) (e : Edit) : c.editAll [e] = c.edit e :=
  Option.bind_fun_some _

theorem put_comm (c : Catalog) {x y : Object} (v : x.Content) (w : y.Content) (h : x ≠ y) :
    (c.put x v).put y w = (c.put y w).put x v := by
  refine ext_content (fun schema => ?_) fun z => ?_
  · simp only [schemaName?_put]
    split <;> split <;> rfl
  · by_cases hx : x = z
    · subst hx
      rw [content_put_of_ne _ w (Ne.symm h), content_put_self, content_put_self,
        content_put_of_ne _ w (Ne.symm h)]
    · by_cases hy : y = z
      · subst hy
        rw [content_put_self, content_put_of_ne _ v hx, content_put_of_ne _ v hx, content_put_self]
      · rw [content_put_of_ne _ w hy, content_put_of_ne _ v hx, content_put_of_ne _ v hx,
          content_put_of_ne _ w hy]

theorem content_edit_of_ne {e : Edit} (h : c.edit e = some d) {x : Object} (hx : e.object ≠ x) :
    d.content x = c.content x := by
  obtain ⟨v, -, rfl⟩ := Option.map_eq_some_iff.1 h
  exact c.content_put_of_ne v hx

theorem content_editAll {edits : List Edit} (h : c.editAll edits = some d) {x : Object}
    (hx : x ∉ edits.map Edit.object) : d.content x = c.content x := by
  induction edits generalizing c with
  | nil =>
    cases h
    rfl
  | cons e edits ih =>
    obtain ⟨c', hc', h⟩ := Option.bind_eq_some_iff.1 h
    rw [List.map_cons, List.mem_cons, not_or] at hx
    rw [ih h hx.2, content_edit_of_ne hc' (Ne.symm hx.1)]

theorem edit_comm (c : Catalog) {e f : Edit} (h : e.object ≠ f.object) :
    ((c.edit e).bind fun d => d.edit f) = (c.edit f).bind fun d => d.edit e := by
  have hleft : ∀ v, (c.put e.object v).edit f =
      (f.change (c.content f.object)).map ((c.put e.object v).put f.object) := by
    intro v
    rw [edit, content_put_of_ne _ v h]
  have hright : ∀ w, (c.put f.object w).edit e =
      (e.change (c.content e.object)).map ((c.put f.object w).put e.object) := by
    intro w
    rw [edit, content_put_of_ne _ w (Ne.symm h)]
  rw [edit, edit]
  cases he : e.change (c.content e.object) with
  | none => cases f.change (c.content f.object) with
    | none => rfl
    | some w =>
      rw [Option.map_none, Option.bind_none, Option.map_some, Option.bind_some, hright, he,
        Option.map_none]
  | some v => cases hf : f.change (c.content f.object) with
    | none =>
      rw [Option.map_none, Option.bind_none, Option.map_some, Option.bind_some, hleft, hf,
        Option.map_none]
    | some w =>
      rw [Option.map_some, Option.map_some, Option.bind_some, Option.bind_some, hleft, hright, hf,
        he, Option.map_some, Option.map_some, put_comm c v w h]

theorem edit_editAll_comm (c : Catalog) {e : Edit} {edits : List Edit}
    (h : e.object ∉ edits.map Edit.object) :
    ((c.edit e).bind fun d => d.editAll edits) = (c.editAll edits).bind fun d => d.edit e := by
  induction edits generalizing c with
  | nil => exact Option.bind_fun_some _
  | cons f edits ih =>
    rw [List.map_cons, List.mem_cons, not_or] at h
    calc ((c.edit e).bind fun d => d.editAll (f :: edits))
        = ((c.edit e).bind fun d => d.edit f).bind fun d => d.editAll edits := by
          rw [Option.bind_assoc]
          rfl
      _ = ((c.edit f).bind fun d => d.edit e).bind fun d => d.editAll edits := by
          rw [edit_comm c h.1]
      _ = (c.edit f).bind fun d => (d.editAll edits).bind fun d => d.edit e := by
          rw [Option.bind_assoc]
          exact Option.bind_congr fun d _ => ih d h.2
      _ = (c.editAll (f :: edits)).bind fun d => d.edit e := by
          rw [editAll_cons, Option.bind_assoc]

/-- Edits of disjoint sets of objects can be made in either order. -/
theorem editAll_comm (c : Catalog) (xs ys : List Edit)
    (h : (xs.map Edit.object).Disjoint (ys.map Edit.object)) :
    ((c.editAll xs).bind fun d => d.editAll ys) = (c.editAll ys).bind fun d => d.editAll xs := by
  induction xs generalizing c with
  | nil => exact (Option.bind_fun_some _).symm
  | cons e xs ih =>
    rw [List.map_cons, List.disjoint_cons_left] at h
    calc ((c.editAll (e :: xs)).bind fun d => d.editAll ys)
        = (c.edit e).bind fun d => (d.editAll xs).bind fun d => d.editAll ys := by
          rw [editAll_cons, Option.bind_assoc]
      _ = (c.edit e).bind fun d => (d.editAll ys).bind fun d => d.editAll xs :=
          Option.bind_congr fun d _ => ih d h.2
      _ = ((c.editAll ys).bind fun d => d.edit e).bind fun d => d.editAll xs := by
          rw [← edit_editAll_comm c h.1, Option.bind_assoc]
      _ = (c.editAll ys).bind fun d => d.editAll (e :: xs) := by
          rw [Option.bind_assoc]
          rfl

end Catalog

end SchemaTransfer
