import SchemaTransfer.Proofs.Target.After

/-!
# Views in the script that is copied

The views stand in one piece of the script, in the order of the catalog. Each of them is a group of
its own, which begins with the search path that goes with its context.
-/
namespace SchemaTransfer
open Emit

/-- An item that creates a view or sets the search path for one. -/
def Item.isOfView : Item → Bool
  | searchPath _ => true
  | createView _ _ _ => true
  | _ => false

namespace Unsure

/-- What is written for a view. The checker may have it preceded by a remark. -/
inductive IsViewGroup (v : View) : Script → Prop
  | accepted : IsViewGroup v
      [.searchPath (SearchPath.entries v.context),
        .createView v.schema v.name (adaptExpression v.statement)]
  | rejected (problem : String) : IsViewGroup v
      [.searchPath (SearchPath.entries v.context), .unparsable problem,
        .createView v.schema v.name (adaptExpression v.statement)]

theorem yields_view (v : View) : Yields (IsViewGroup v) (view v) := by
  refine yields_bind fun _ => Yields.bind (yields_checked _ _ _) fun items hitems => yields_pure ?_
  rcases hitems with rfl | ⟨problem, rfl⟩
  · exact .accepted
  · exact .rejected problem

theorem not_isOfView_checks (x : Schema × Table) : Every (·.isOfView = false) (checks x) :=
  every_each fun _ _ => yields_bind fun _ => every_checked rfl fun _ => rfl

theorem not_isOfView_validations (x : Schema × Table) :
    ∀ item ∈ validations x, item.isOfView = false := by
  intro item hitem
  obtain ⟨k, -, rfl⟩ := List.mem_map.1 hitem
  rfl

theorem IsBehindViews.not_isOfView {c : Catalog} {item : Item} (h : IsBehindViews c item) :
    item.isOfView = false := by
  cases h <;> rfl

end Unsure

/-- The views are created one after the other, and nowhere else in the script. -/
theorem yields_emitUnsure_views (c : Catalog) :
    Yields (fun items => ∃ pre groups post, items = pre ++ groups.flatten ++ post ∧
      List.Forall₂ Unsure.IsViewGroup c.views groups ∧
      ∀ item ∈ pre ++ post, item.isOfView = false) (emitUnsure c) := by
  intro e
  obtain ⟨checks, views, rest, hscript, hchecks, groups, hgroups, rfl⟩ :=
    yields_emitUnsure_parts (every_each fun x _ => Unsure.not_isOfView_checks x)
      (yields_each fun v _ => Unsure.yields_view v) e
  refine ⟨Unsure.preamble ++ c.tables.flatMap Unsure.validations ++ checks ++ [.blank], groups,
    rest, hscript.layout, hgroups, ?_⟩
  have hpreamble : ∀ item ∈ Unsure.preamble, item.isOfView = false := by decide +kernel
  have hvalidations : ∀ item ∈ c.tables.flatMap Unsure.validations, item.isOfView = false :=
    List.forall_mem_flatMap.2 fun x _ => Unsure.not_isOfView_validations x
  simp only [List.forall_mem_append, List.forall_mem_singleton]
  exact ⟨⟨⟨⟨hpreamble, hvalidations⟩, hchecks⟩, rfl⟩,
    fun item hitem => (hscript.rest item hitem).not_isOfView⟩

end SchemaTransfer
