import SchemaTransfer.Proofs.Target.SearchPathOrder

/-!
# Texts that are copied

In the script that is copied each view takes two texts, or three if it was rejected: the line that
sets its search path, a remark, and the statement that creates it. Functions take one text each. No
other text of the script begins as those do that create a view or a function, but for the functions
that stand for triggers.
-/
namespace SchemaTransfer
open Emit

namespace Unsure

/-- The line that sets a search path. -/
def pathLine (path : List String) : String := "set search_path TO " ++ ", ".intercalate path ++ ";"

/-- The statement that creates a view. One without a schema has only its own name. -/
def viewText (v : View) : String :=
  let name := if v.schema = "" then identifier v.name
    else identifier v.schema ++ "." ++ identifier v.name
  "CREATE VIEW " ++ name ++ " " ++ adaptExpression v.statement ++ ";"

/-- The texts for a view. -/
structure IsViewText (v : View) (path remarks texts : List String) : Prop where
  isSearchPath : SearchPath.IsSearchPath v.context path
  atMostOne : remarks = [] ∨
    ∃ problem, remarks = ["-- WARNING: does not parse as PostgreSQL: " ++ problem]
  written : texts = pathLine path :: remarks ++ [viewText v]

theorem IsViewText.length_remarks {v : View} {path remarks texts : List String}
    (h : IsViewText v path remarks texts) : remarks.length ≤ 1 := by
  rcases h.atMostOne with rfl | ⟨problem, rfl⟩
  · exact Nat.zero_le 1
  · exact Nat.le_refl 1

theorem IsViewGroup.isViewText {v : View} {group : Script} (h : IsViewGroup v group) :
    ∃ path remarks, IsViewText v path remarks (group.map Item.render) := by
  have hpath : SearchPath.IsSearchPath v.context (SearchPath.entries v.context) :=
    SearchPath.isSearchPath_entries v.context
  cases h with
  | accepted => exact ⟨_, [], hpath, .inl rfl, rfl⟩
  | rejected problem => exact ⟨_, _, hpath, .inr ⟨problem, rfl⟩, rfl⟩

/-- The text begins neither as one that creates a view nor as one that creates a function. -/
def createsNothing (text : String) : Bool :=
  !begins "CREATE VIEW " text && !begins "CREATE FUNCTION " text

theorem createsNothing_iff {text : String} : createsNothing text = true ↔
    begins "CREATE VIEW " text = false ∧ begins "CREATE FUNCTION " text = false := by
  simp [createsNothing]

/-- What the other texts begin with. -/
def plainWords : List String :=
  ["-- ", "ALTER TABLE ", "-- WARNING: does not parse as PostgreSQL: ", "COMMENT ON VIEW ",
    "COMMENT ON COLUMN ", "COMMENT ON FUNCTION "]

theorem createsNothing_of_begins {v text : String} (hv : begins v text = true)
    (h : v ∈ plainWords) : createsNothing text = true := by
  have hapart : ∀ v ∈ plainWords, (begins v "CREATE VIEW " || begins "CREATE VIEW " v) = false ∧
      (begins v "CREATE FUNCTION " || begins "CREATE FUNCTION " v) = false := by
    decide
  obtain ⟨hview, hfunction⟩ := hapart v h
  exact createsNothing_iff.2 ⟨begins_eq_false hv hview, begins_eq_false hv hfunction⟩

theorem createsNothing_of_words {item : Item} (h : item.words ∈ plainWords) :
    createsNothing item.render = true :=
  createsNothing_of_begins item.begins_render h

theorem createsNothing_checks (x : Schema × Table) :
    Every (createsNothing ·.render = true) (checks x) :=
  every_each fun _ _ => yields_bind fun _ =>
    every_checked (createsNothing_of_words (by simp [Item.words, plainWords]))
      fun _ => createsNothing_of_words (by simp [Item.words, plainWords])

theorem createsNothing_viewComments (s : Schema) :
    ∀ item ∈ viewComments s, createsNothing item.render = true := by
  intro item hitem
  apply createsNothing_of_words
  cases isViewComment_of_mem item hitem <;> simp [Item.words, plainWords]

/-- Ahead of the views nothing is created. -/
theorem createsNothing_front (c : Catalog) {checks : Script}
    (hchecks : ∀ item ∈ checks, createsNothing item.render = true) :
    ∀ item ∈ preamble ++ c.tables.flatMap validations ++ checks ++ [.blank],
      createsNothing item.render = true := by
  have hpreamble : ∀ item ∈ preamble, createsNothing item.render = true := by decide +kernel
  have hvalidations (x : Schema × Table) :
      ∀ item ∈ validations x, createsNothing item.render = true := by
    intro item hitem
    obtain ⟨k, -, rfl⟩ := List.mem_map.1 hitem
    exact createsNothing_of_words (by simp [Item.words, plainWords])
  simp only [List.forall_mem_append, List.forall_mem_singleton, List.forall_mem_flatMap]
  exact ⟨⟨⟨hpreamble, fun x _ => hvalidations x⟩, hchecks⟩, by decide⟩

theorem IsBehindViews.begins_createView {c : Catalog} {item : Item} (h : IsBehindViews c item) :
    begins "CREATE VIEW " item.render = false := by
  have hfunction {item : Item} (hwords : item.words = "CREATE FUNCTION ") :
      begins "CREATE VIEW " item.render = false :=
    Item.begins_render_eq_false _ hwords (by decide)
  cases h with
  | blank => decide
  | remark htext => exact begins_eq_false htext (by decide)
  | createFunction => exact hfunction rfl
  | createTriggerFunction => exact hfunction rfl
  | _ => exact (createsNothing_iff.1 (createsNothing_of_words (by simp [Item.words, plainWords]))).1

/-- The texts for a view create no function. -/
theorem IsViewGroup.begins_createFunction {v : View} {group : Script} (h : IsViewGroup v group) :
    ∀ item ∈ group, begins "CREATE FUNCTION " item.render = false := by
  have hpath (path : List String) :
      begins "CREATE FUNCTION " (Item.searchPath path).render = false :=
    Item.begins_render_eq_false "set search_path TO " rfl (by decide)
  have hview (schema name body : String) :
      begins "CREATE FUNCTION " (Item.createView schema name body).render = false :=
    Item.begins_render_eq_false "CREATE VIEW " rfl (by decide)
  have hproblem (problem : String) :
      begins "CREATE FUNCTION " (Item.unparsable problem).render = false :=
    (createsNothing_iff.1 (createsNothing_of_words (by simp [Item.words, plainWords]))).2
  cases h with
  | accepted => simp [hpath, hview]
  | rejected problem => simp [hpath, hview, hproblem]

end Unsure

/-- Each view of the catalog has its texts in the script, one view after the other. -/
theorem yields_emitUnsure_viewTexts (c : Catalog) :
    Yields (fun items => ∃ pre groups post,
      items.render = unlines (pre ++ groups.flatten ++ post) ++ "\n" ∧
      List.Forall₂ (fun v texts => ∃ path remarks, Unsure.IsViewText v path remarks texts)
        c.views groups ∧
      ∀ text ∈ pre ++ post, begins "CREATE VIEW " text = false) (emitUnsure c) := by
  intro e
  obtain ⟨checks, views, rest, hscript, hchecks, groups, hgroups, rfl⟩ :=
    yields_emitUnsure_parts (every_each fun x _ => Unsure.createsNothing_checks x)
      (yields_each fun v _ => Unsure.yields_view v) e
  have hfront := Unsure.createsNothing_front c hchecks
  let pre := Unsure.preamble ++ c.tables.flatMap Unsure.validations ++ checks ++ [Item.blank]
  refine ⟨pre.map Item.render, groups.map (·.map Item.render), rest.map Item.render, ?_, ?_, ?_⟩
  · rw [Script.render, hscript.layout, List.map_append, List.map_append, List.map_flatten]
  · rw [List.forall₂_map_right_iff]
    exact hgroups.imp fun _ _ hgroup => hgroup.isViewText
  · rw [List.forall_mem_append, List.forall_mem_map, List.forall_mem_map]
    exact ⟨fun item hitem => (Unsure.createsNothing_iff.1 (hfront item hitem)).1,
      fun item hitem => (hscript.rest item hitem).begins_createView⟩

/-- The item creates a function, and not one that stands for a trigger. -/
def Item.isFunction : Item → Bool
  | createFunction .. => true
  | _ => false

/-- What is written for the functions of a schema. -/
def Schema.functionBlocks (s : Schema) : Script :=
  s.routines.values.map fun f => .createFunction s.name f.name f.statement

/-- What is written for the functions, schema by schema. -/
def Catalog.functionBlocks (c : Catalog) : Script := c.schemas.values.flatMap Schema.functionBlocks

namespace Unsure

/-- The text that makes a function for a trigger. -/
def triggerText (s : Schema) (entry : String × Trigger) : String :=
  "CREATE FUNCTION " ++ identifier s.name ++ "." ++ identifier (entry.1 ++ "_fn") ++
    "() RETURNS trigger LANGUAGE plpgsql AS\n$func$\n" ++ entry.2.statement ++ "\n$func$;"

/-- An item behind the functions. If it creates one, that stands for a trigger of the catalog. -/
structure IsBehindFunctions (c : Catalog) (item : Item) : Prop where
  notFunction : item.isFunction = false
  trigger : begins "CREATE FUNCTION " item.render = true →
    ∃ s ∈ c.schemas.values, ∃ entry ∈ s.triggers.entries, item.render = triggerText s entry

variable {c : Catalog}

theorem isBehindFunctions_of_plain {item : Item} (h : item.isFunction = false)
    (hplain : createsNothing item.render = true) : IsBehindFunctions c item := by
  refine ⟨h, fun hbegins => ?_⟩
  rw [(createsNothing_iff.1 hplain).2] at hbegins
  cases hbegins

theorem render_createTriggerFunction (s : Schema) (entry : String × Trigger) :
    (Item.createTriggerFunction s.name (entry.1 ++ "_fn") entry.2.statement).render =
      triggerText s entry := by
  have hwords : "() RETURNS trigger LANGUAGE plpgsql AS\n$func$\n" =
      "() RETURNS trigger LANGUAGE plpgsql" ++ " AS\n$func$\n" := by decide +kernel
  unfold Item.render triggerText
  rw [hwords]
  simp only [qualifiedName, Item.functionBody, String.append_assoc]

theorem every_isBehindFunctions_trigger {s : Schema} (hs : s ∈ c.schemas.values)
    {entry : String × Trigger} (hentry : entry ∈ s.triggers.entries) :
    Every (IsBehindFunctions c) (trigger s entry) := by
  have hremark : createsNothing (Item.remark "-- Add the CREATE TRIGGER too!").render :=
    createsNothing_of_begins (v := "-- ") (by decide) (by decide)
  refine yields_bind fun _ => yields_pure ?_
  simp only [List.cons_append, List.forall_mem_cons, List.forall_mem_append]
  refine ⟨⟨rfl, fun _ => ⟨s, hs, entry, hentry, render_createTriggerFunction s entry⟩⟩,
    fun item hitem => ?_, isBehindFunctions_of_plain rfl hremark,
    isBehindFunctions_of_plain rfl (by decide), List.forall_mem_nil _⟩
  obtain ⟨text, -, rfl⟩ := Option.map_eq_some_iff.1 (Option.mem_toList.1 hitem)
  exact isBehindFunctions_of_plain rfl
    (createsNothing_of_words (by simp [Item.words, plainWords]))

theorem yields_function (s : Schema) (f : Routine) :
    Yields (· = [.createFunction s.name f.name f.statement]) (function s f) :=
  yields_bind fun _ => yields_pure rfl

end Unsure

/-- The functions of the catalog stand in one piece of the script. -/
theorem yields_emitUnsure_functions (c : Catalog) :
    Yields (fun items => ∃ pre post, items = pre ++ c.functionBlocks ++ post ∧
      (∀ item ∈ pre, begins "CREATE FUNCTION " item.render = false) ∧
      ∀ item ∈ post, Unsure.IsBehindFunctions c item) (emitUnsure c) := by
  refine Yields.bind (every_each fun x _ => Unsure.createsNothing_checks x) fun checks hchecks => ?_
  refine Yields.bind (every_each fun v _ e => (Unsure.yields_view v e).begins_createFunction)
    fun views hviews => ?_
  refine Yields.bind (yields_each_eq fun s _ => yields_each_eq fun f _ =>
    Unsure.yields_function s f) fun functions hfunctions => ?_
  refine Yields.bind (every_each fun s hs => every_each fun entry hentry =>
    Unsure.every_isBehindFunctions_trigger hs hentry) fun triggers htriggers => yields_pure ?_
  have hblocks : functions = c.functionBlocks :=
    hfunctions.trans (List.flatMap_congr fun s _ => List.flatMap_pure_eq_map _ _)
  refine ⟨Unsure.preamble ++ c.tables.flatMap Unsure.validations ++ checks ++ [.blank] ++
    views ++ c.schemas.values.flatMap Unsure.viewComments ++ [.blank] ++
    [.remark (Unsure.banner "functions")], [.blank] ++ [.remark (Unsure.banner "triggers")] ++
    triggers, ?_, ?_, ?_⟩
  · rw [hblocks]
    simp only [List.append_assoc]
  · have hfront := Unsure.createsNothing_front c hchecks
    have hcomments (s : Schema) : ∀ item ∈ Unsure.viewComments s,
        begins "CREATE FUNCTION " item.render = false := fun item hitem =>
      (Unsure.createsNothing_iff.1 (Unsure.createsNothing_viewComments s item hitem)).2
    rw [List.forall_mem_append, List.forall_mem_append, List.forall_mem_append,
      List.forall_mem_append, List.forall_mem_flatMap, List.forall_mem_singleton,
      List.forall_mem_singleton]
    exact ⟨⟨⟨⟨fun item hitem => (Unsure.createsNothing_iff.1 (hfront item hitem)).2, hviews⟩,
      fun s _ => hcomments s⟩, by decide⟩, by decide +kernel⟩
  · simp only [List.forall_mem_append, List.forall_mem_singleton]
    exact ⟨⟨Unsure.isBehindFunctions_of_plain rfl (by decide),
      Unsure.isBehindFunctions_of_plain rfl (by decide +kernel)⟩, htriggers⟩

end SchemaTransfer
