import SchemaTransfer.Proofs.Load.Context
import SchemaTransfer.Proofs.Target.CopiedText

/-!
# Views from the dump to the script

A view may depend on views before it, and on the schema and the path that were current when it was
created. Both reach the script: views keep their order, and each is created under the search path of
its own context.
-/
namespace SchemaTransfer
open Load Dump

/-- In a dump that can be loaded, every statement that creates a view gives one view, in the order
of the dump, and a view, a trigger or a function has the schema and the path that were set last
before its statement. A trigger comes from the last statement for its name, and each function from
one of its own. Whatever was emitted before, the script creates the views in the same order, each
behind the search path that goes with its context; so does its text, in which no other statement
creates a view. -/
theorem views_in_context {lines : List (List Char)} {session : Session} {notices : List Notice}
    (h : ({} : Session).takeAll (statements lines) = (session, notices, none)) :
    session.catalog.views = inContext viewOf? (statements lines) ∧
    (∀ schema name, ((session.catalog.schema schema).triggers.get? name).map uncommented =
      (inContext (triggerOf? schema name) (statements lines)).getLast?) ∧
    (∀ schema, (session.catalog.schema schema).routines.values.Perm
      (inContext (routineOf? schema) (statements lines))) ∧
    ∀ e : Emission,
      (∃ pre groups post, ((emitUnsure session.catalog).run e).1 = pre ++ groups.flatten ++ post ∧
        List.Forall₂ Unsure.IsViewGroup session.catalog.views groups ∧
        ∀ item ∈ pre ++ post, item.isOfView = false) ∧
      ∃ pre groups post, ((emitUnsure session.catalog).run e).1.render =
          unlines (pre ++ groups.flatten ++ post) ++ "\n" ∧
        List.Forall₂ (fun v texts => ∃ path remarks, Unsure.IsViewText v path remarks texts)
          session.catalog.views groups ∧
        ∀ text ∈ pre ++ post, begins "CREATE VIEW " text = false := by
  have hload := takeAll_load {} (statements lines)
  rw [h] at hload
  exact ⟨load_views hload, fun _ _ => load_trigger hload, fun _ => load_routines hload,
    fun e => ⟨yields_emitUnsure_views session.catalog e,
      yields_emitUnsure_viewTexts session.catalog e⟩⟩

/-- Two views in two contexts, of which only the second one has a path. -/
def twoViews : List (List Char) :=
  ["SET CURRENT SCHEMA = \"A\";", "CREATE VIEW V AS SELECT 1 FROM T;",
    "SET CURRENT SCHEMA = \"B\";", "SET CURRENT PATH = \"SYSIBM\",\"C\";",
    "CREATE VIEW A.W AS SELECT 2 FROM V;"].map String.toList

/-- The checker may reject each of them. -/
theorem views_in_context_twoViews :
    ∃ session notices, ({} : Session).takeAll (statements twoViews) = (session, notices, none) ∧
      session.catalog.views =
        [{ schema := "A", name := "V", statement := "AS SELECT 1 FROM T",
           context := { schema := "A", path := "" } },
         { schema := "A", name := "W", statement := "AS SELECT 2 FROM V",
           context := { schema := "B", path := "\"SYSIBM\",\"C\"" } }] ∧
      ∀ e : Emission, ∃ pre first second post, first.length ≤ 1 ∧ second.length ≤ 1 ∧
        ((emitUnsure session.catalog).run e).1.render = unlines (pre ++
          ("set search_path TO a, db2;" :: first ++ ["CREATE VIEW a.v AS SELECT 1 FROM T;"]) ++
          ("set search_path TO b, sysibm, c, db2;" :: second ++
            ["CREATE VIEW a.w AS SELECT 2 FROM V;"]) ++ post) ++ "\n" := by
  have hnone : (({} : Session).takeAll (statements twoViews)).2.2 = none := by decide +kernel
  obtain ⟨⟨session, notices, failure⟩, hload⟩ :
      ∃ run, ({} : Session).takeAll (statements twoViews) = run := ⟨_, rfl⟩
  rw [hload] at hnone
  obtain rfl : failure = none := hnone
  obtain ⟨hviews, -, -, hscript⟩ := views_in_context hload
  have hstatements : inContext viewOf? (statements twoViews) =
      [{ schema := "A", name := "V", statement := "AS SELECT 1 FROM T",
         context := { schema := "A", path := "" } },
       { schema := "A", name := "W", statement := "AS SELECT 2 FROM V",
         context := { schema := "B", path := "\"SYSIBM\",\"C\"" } }] := by
    decide +kernel
  rw [hstatements] at hviews
  refine ⟨session, notices, hload, hviews, fun e => ?_⟩
  obtain ⟨-, pre, groups, post, hrender, hgroups, -⟩ := hscript e
  rw [hviews] at hgroups
  obtain _ | ⟨⟨path, first, hfirst⟩, _ | ⟨⟨path', second, hsecond⟩, ⟨⟩⟩⟩ := hgroups
  refine ⟨pre, first, second, post, hfirst.length_remarks, hsecond.length_remarks, ?_⟩
  have hpath : Unsure.pathLine path = "set search_path TO a, db2;" := by
    rw [SearchPath.isSearchPath_iff.1 hfirst.isSearchPath]
    decide +kernel
  have hpath' : Unsure.pathLine path' = "set search_path TO b, sysibm, c, db2;" := by
    rw [SearchPath.isSearchPath_iff.1 hsecond.isSearchPath]
    decide +kernel
  rw [hrender, hfirst.written, hsecond.written, hpath, hpath']
  have hview : Unsure.viewText ⟨"A", "V", "AS SELECT 1 FROM T", ⟨"A", ""⟩⟩ =
      "CREATE VIEW a.v AS SELECT 1 FROM T;" := by
    decide +kernel
  have hview' : Unsure.viewText ⟨"A", "W", "AS SELECT 2 FROM V", ⟨"B", "\"SYSIBM\",\"C\""⟩⟩ =
      "CREATE VIEW a.w AS SELECT 2 FROM V;" := by
    decide +kernel
  rw [hview, hview']
  simp

end SchemaTransfer
