import Mathlib.Data.List.Sort
import SchemaTransfer.Proofs.Lines
import SchemaTransfer.Proofs.Target.SearchPath
import SchemaTransfer.Proofs.Target.View

/-!
# Order in a search path

The order of a search path decides which object a view finds under a name. It is that of the current
schema and the current path: every value stands where it comes first, and `db2` stands at the end if
it is no value.
-/
namespace SchemaTransfer
open Unicode Emit

namespace SearchPath

/-- Every value once, in the order in which the values come first. -/
structure IsFirsts (values firsts : List String) : Prop where
  mem_iff : ∀ x, x ∈ firsts ↔ x ∈ values
  ordered : firsts.Pairwise fun x y => values.idxOf x < values.idxOf y

namespace IsFirsts

variable {values firsts others : List String} {x : String}

theorem nodup (h : IsFirsts values firsts) : firsts.Nodup :=
  h.ordered.imp fun hlt heq => absurd (heq ▸ hlt) (Nat.lt_irrefl _)

/-- There is only one such list. -/
theorem unique (h : IsFirsts values firsts) (h' : IsFirsts values others) : firsts = others := by
  have hperm : firsts.Perm others :=
    (List.perm_ext_iff_of_nodup h.nodup h'.nodup).2 fun x => (h.mem_iff x).trans (h'.mem_iff x).symm
  refine hperm.eq_of_pairwise (fun x y _ _ hxy hyx => ?_) h.ordered h'.ordered
  exact absurd (hxy.trans hyx) (Nat.lt_irrefl _)

theorem nil : IsFirsts [] [] := ⟨fun _ => Iff.rfl, .nil⟩

theorem idxOf_concat (h : IsFirsts values firsts) (hx : x ∈ firsts) (new : String) :
    (values ++ [new]).idxOf x = values.idxOf x :=
  List.idxOf_append_of_mem ((h.mem_iff x).1 hx)

theorem ordered_concat (h : IsFirsts values firsts) (new : String) :
    firsts.Pairwise fun x y => (values ++ [new]).idxOf x < (values ++ [new]).idxOf y := by
  refine h.ordered.imp_of_mem fun hx hy hlt => ?_
  rwa [h.idxOf_concat hx, h.idxOf_concat hy]

theorem concat_known (h : IsFirsts values firsts) (hx : x ∈ firsts) :
    IsFirsts (values ++ [x]) firsts := by
  refine ⟨fun y => ?_, h.ordered_concat x⟩
  rw [h.mem_iff, List.mem_append, List.mem_singleton]
  refine ⟨.inl, fun hy => hy.elim id ?_⟩
  rintro rfl
  exact (h.mem_iff _).1 hx

theorem concat_new (h : IsFirsts values firsts) (hx : x ∉ firsts) :
    IsFirsts (values ++ [x]) (firsts ++ [x]) := by
  refine ⟨fun y => ?_, List.pairwise_append.2 ⟨h.ordered_concat x, List.pairwise_singleton _ _, ?_⟩⟩
  · rw [List.mem_append, List.mem_append, h.mem_iff]
  · intro y hy z hz
    rw [List.mem_singleton.1 hz, h.idxOf_concat hy,
      List.idxOf_append_of_notMem (mt (h.mem_iff x).2 hx), List.idxOf_cons_self, Nat.add_zero]
    exact List.idxOf_lt_length_iff.2 ((h.mem_iff y).1 hy)

end IsFirsts

/-- A value that is added goes to the end, unless it is empty or there already. -/
theorem IsFirsts.add {values firsts : List String} (h : IsFirsts values firsts) (x : String) :
    IsFirsts (values ++ [x].filter (· ≠ "")) (add firsts x) := by
  unfold SearchPath.add
  by_cases hempty : x = ""
  · rw [if_pos (by simp [hempty]), List.filter_cons_of_neg (by simp [hempty]), List.filter_nil,
      List.append_nil]
    exact h
  · rw [List.filter_cons_of_pos (by simp [hempty]), List.filter_nil]
    by_cases hx : x ∈ firsts
    · rw [if_pos (by simp [hx])]
      exact h.concat_known hx
    · rw [if_neg (by simp [hempty, hx])]
      exact h.concat_new hx

theorem isFirsts_foldl_add (values : List String) :
    IsFirsts (values.filter (· ≠ "")) (values.foldl add []) := by
  induction values using List.reverseRecOn with
  | nil => exact .nil
  | append_singleton values x ih =>
    rw [List.filter_append, List.foldl_concat]
    exact ih.add x

/-- What is left of the current schema and then of the pieces of the current path, where anything
is left without double quotes and the blanks around it. -/
def IsValues (context : Context) (values : List String) : Prop :=
  ∃ pieces, Lines.IsCut ',' context.path.toList pieces ∧
    values = ((context.schema.toList :: pieces).map fun cs =>
      String.ofList (lower (trim (cs.filter (· != '"'))))).filter (· ≠ "")

/-- The values of a context, each where it comes first, and `db2` behind them unless it is one. -/
structure IsSearchPath (context : Context) (path : List String) : Prop where
  listed : ∃ values firsts, IsValues context values ∧ IsFirsts values firsts ∧
    path = firsts ++ if "db2" ∈ firsts then [] else ["db2"]
  ne_empty : ∀ x ∈ path, x ≠ ""
  nodup : path.Nodup
  db2_once : path.count "db2" = 1

theorem isValues_iff {context : Context} {values : List String} :
    IsValues context values ↔ values = (candidates context).filter (· ≠ "") := by
  constructor
  · rintro ⟨pieces, hpieces, rfl⟩
    rw [Lines.isCut_iff.1 hpieces]
    rfl
  · rintro rfl
    exact ⟨_, Lines.isCut_iff.2 rfl, rfl⟩

theorem entries_eq (context : Context) :
    SearchPath.entries context = (candidates context).foldl add [] ++
      if "db2" ∈ (candidates context).foldl add [] then [] else ["db2"] := by
  unfold SearchPath.entries
  generalize (candidates context).foldl add [] = firsts
  unfold SearchPath.add
  by_cases hdb2 : "db2" ∈ firsts
  · rw [if_pos (by simp [hdb2]), if_pos hdb2, List.append_nil]
  · rw [if_neg (by simp [hdb2]), if_neg hdb2]

theorem nodup_entries (context : Context) : (SearchPath.entries context).Nodup := by
  rw [entries_eq]
  have hnodup := (isFirsts_foldl_add (candidates context)).nodup
  split
  · rwa [List.append_nil]
  · next hdb2 => exact List.nodup_append.2 ⟨hnodup, List.nodup_singleton _, by
      rintro x hx y hy rfl
      exact hdb2 (List.mem_singleton.1 hy ▸ hx)⟩

theorem isSearchPath_entries (context : Context) :
    IsSearchPath context (SearchPath.entries context) where
  listed := ⟨_, _, isValues_iff.2 rfl, isFirsts_foldl_add _, entries_eq context⟩
  ne_empty x hx := by
    rcases mem_entries.1 hx with ⟨-, hne⟩ | rfl
    · exact hne
    · decide
  nodup := nodup_entries context
  db2_once := List.count_eq_one_of_mem (nodup_entries context) (mem_entries.2 (.inr rfl))

theorem isSearchPath_iff {context : Context} {path : List String} :
    IsSearchPath context path ↔ path = SearchPath.entries context := by
  constructor
  · intro h
    obtain ⟨values, firsts, hvalues, hfirsts, rfl⟩ := h.listed
    rw [isValues_iff.1 hvalues] at hfirsts
    rw [entries_eq, hfirsts.unique (isFirsts_foldl_add _)]
  · rintro rfl
    exact isSearchPath_entries context

end SearchPath

open SearchPath

/-- The group of a view sets a search path once, ahead of everything else, and in one line that has
the entries of the path with a comma and a blank between two. -/
structure Unsure.SetsPath (v : View) (path : List String) (group : Script) : Prop where
  ahead : ∃ rest, group = .searchPath path :: rest ∧ ∀ other, .searchPath other ∉ rest
  line : (Item.searchPath path).render = "set search_path TO " ++ ", ".intercalate path ++ ";"

theorem Unsure.IsViewGroup.setsPath {v : View} {group : Script} (h : IsViewGroup v group) :
    SetsPath v (SearchPath.entries v.context) group := by
  cases h with
  | accepted => exact ⟨⟨_, rfl, by simp⟩, rfl⟩
  | rejected problem => exact ⟨⟨_, rfl, by simp⟩, rfl⟩

/-- For every view of a catalog, in the order of the catalog, the script sets the search path of its
context and then creates the view; no other item does so for a view. -/
theorem emitUnsure_searchPaths (c : Catalog) (e : Emission) :
    ∃ pre groups post, ((emitUnsure c).run e).1 = pre ++ groups.flatten ++ post ∧
      List.Forall₂ (fun v group => ∃ path, IsSearchPath v.context path ∧
        (∀ other, IsSearchPath v.context other → other = path) ∧
        Unsure.SetsPath v path group) c.views groups ∧
      ∀ item ∈ pre ++ post, item.isOfView = false := by
  obtain ⟨pre, groups, post, hscript, hgroups, hothers⟩ := yields_emitUnsure_views c e
  refine ⟨pre, groups, post, hscript, hgroups.imp fun v group hgroup => ?_, hothers⟩
  exact ⟨SearchPath.entries v.context, isSearchPath_iff.2 rfl, fun other => isSearchPath_iff.1,
    hgroup.setsPath⟩

/-- Pieces that differ by double quotes, blanks or case are one entry, and `db2` may stand among
them. -/
example : SearchPath.entries { schema := "A", path := "\"SYSIBM\", Db2 ,,\"a\",SYSIBM,C" } =
    ["a", "sysibm", "db2", "c"] := by decide

end SchemaTransfer
