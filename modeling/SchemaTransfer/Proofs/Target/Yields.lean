import SchemaTransfer.Conversion
import SchemaTransfer.Proofs.Names.Emission

/-!
# What is emitted, whatever was emitted before

The state of an emission decides on names and remarks only. So most of what a script holds can be
told from the catalog.
-/
namespace SchemaTransfer

namespace Emit

variable {α β : Type} {p q : Script → Prop}

/-- What is emitted has a property, whatever was emitted before. -/
def Yields (p : Script → Prop) (m : Emit Script) : Prop := ∀ e, p (m.run e).1

theorem yields_pure {items : Script} (h : p items) : Yields p (pure items) := fun _ => h

theorem yields_bind {m : Emit α} {k : α → Emit Script} (h : ∀ a, Yields p (k a)) :
    Yields p (m >>= k) :=
  fun e => h (m.run e).1 (m.run e).2

theorem Yields.bind {m : Emit Script} {k : Script → Emit Script} (hm : Yields q m)
    (hk : ∀ items, q items → Yields p (k items)) : Yields p (m >>= k) :=
  fun e => hk (m.run e).1 (hm e) (m.run e).2

/-- A property of the groups that the members of a list give. -/
theorem yields_each {f : α → Emit Script} {r : α → Script → Prop} {l : List α}
    (h : ∀ a ∈ l, Yields (r a) (f a)) :
    Yields (fun items => ∃ groups, List.Forall₂ r l groups ∧ items = groups.flatten)
      (each f l) := by
  induction l with
  | nil => exact yields_pure ⟨[], .nil, rfl⟩
  | cons a l ih =>
    refine (h a List.mem_cons_self).bind fun items hitems => ?_
    refine (ih fun b hb => h b (List.mem_cons_of_mem _ hb)).bind fun more hmore => ?_
    obtain ⟨groups, hgroups, rfl⟩ := hmore
    exact yields_pure ⟨items :: groups, .cons hitems hgroups, rfl⟩

/-- A property that scripts keep when they are put together. -/
theorem yields_each_append {f : α → Emit Script} {l : List α} (hnil : p [])
    (happend : ∀ {items more}, p items → p more → p (items ++ more))
    (h : ∀ a ∈ l, Yields p (f a)) : Yields p (each f l) := by
  induction l with
  | nil => exact yields_pure hnil
  | cons a l ih =>
    refine (h a List.mem_cons_self).bind fun items hitems => ?_
    refine (ih fun b hb => h b (List.mem_cons_of_mem _ hb)).bind fun more hmore => ?_
    exact yields_pure (happend hitems hmore)

end Emit

/-- The scripts of a conversion are emitted one after the other, each from the state that the one
before it leaves. -/
theorem emitScripts_runs {withTablespaces : Bool} {c : Catalog} {e e' : Emission}
    {scripts : Scripts} (h : (emitScripts withTablespaces c).run e = (.ok scripts, e')) :
    ((emitBefore withTablespaces c).run e).1 = .ok scripts.before ∧
      ∃ f, (emitAfter withTablespaces c).run ((emitBefore withTablespaces c).run e).2 =
          (scripts.after, f) ∧ (emitUnsure c).run f = (scripts.unsure, e') := by
  unfold emitScripts at h
  rw [Emit.run_bind] at h
  cases hbefore : ((emitBefore withTablespaces c).run e).1 with
  | error failure =>
    rw [hbefore] at h
    cases h
  | ok before =>
    rw [hbefore] at h
    dsimp only at h
    rw [Emit.run_bind, Emit.run_bind] at h
    cases h
    exact ⟨rfl, _, rfl, rfl⟩

theorem emitScripts_parts {withTablespaces : Bool} {c : Catalog} {e e' : Emission}
    {scripts : Scripts} (h : (emitScripts withTablespaces c).run e = (.ok scripts, e')) :
    ((emitBefore withTablespaces c).run e).1 = .ok scripts.before ∧
      (∃ f, ((emitAfter withTablespaces c).run f).1 = scripts.after) ∧
      ∃ f, ((emitUnsure c).run f).1 = scripts.unsure := by
  obtain ⟨hbefore, f, hafter, hunsure⟩ := emitScripts_runs h
  exact ⟨hbefore, ⟨_, congrArg Prod.fst hafter⟩, f, congrArg Prod.fst hunsure⟩

theorem emitScripts_eq_ok {withTablespaces : Bool} {c : Catalog} {e e' : Emission}
    {scripts : Scripts} (h : (emitScripts withTablespaces c).run e = (.ok scripts, e')) :
    ((emitBefore withTablespaces c).run e).1 = .ok scripts.before ∧
      ∃ f, ((emitAfter withTablespaces c).run f).1 = scripts.after :=
  ⟨(emitScripts_parts h).1, (emitScripts_parts h).2.1⟩

end SchemaTransfer
