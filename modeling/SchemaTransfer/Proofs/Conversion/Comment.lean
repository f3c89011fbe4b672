import SchemaTransfer.Proofs.Load.Comment
import SchemaTransfer.Proofs.Target.Comment

/-!
# Comments on tables through a conversion

A comment on a declared table may be put between any two statements behind the declaration. The
dump still converts, and the script to run before loading has the comment, text for text. This
needs a text that the lines of a dump can hold: a dump is cut into statements line by line, also
inside a literal, so that a line of the text that ends in a semicolon ends the statement.
-/
namespace SchemaTransfer
open Load Dump

/-- The comment of a table in the target, in lines of its own. -/
def Script.Comments (schema name text : String) (s : Script) : Prop :=
  ∃ above below, s.render = above ++
    ("COMMENT ON TABLE " ++ qualifiedName schema name ++ " IS '" ++ text ++ "';\n") ++ below

theorem Script.comments_of_mem {schema name text : String} {s : Script}
    (h : .commentTable ⟨schema, name⟩ text ∈ s) : s.Comments schema name text := by
  obtain ⟨above, below, hrender⟩ := Script.render_of_mem h
  have hitem : (Item.commentTable ⟨schema, name⟩ text).render ++ "\n" =
      "COMMENT ON TABLE " ++ qualifiedName schema name ++ " IS '" ++ text ++ "';\n" := by
    have hstart : " IS '" = " IS " ++ "'" := rfl
    have hend : "';\n" = "'" ++ (";" ++ "\n") := rfl
    show "COMMENT ON TABLE " ++ qualifiedName schema name ++
      (" IS " ++ ("'" ++ text ++ "'") ++ ";") ++ "\n" = _
    rw [hstart, hend]
    generalize qualifiedName schema name = table
    simp only [String.append_assoc]
  exact ⟨above, below, hitem ▸ hrender⟩

/-- A table that is given a comment is emitted as before, and the script has its comment. -/
theorem emitScripts_comment {withTablespaces : Bool} {c : Catalog} {e e' : Emission}
    {scripts : Scripts} {schema name : String} {t : Table} (text : String)
    (hkept : (c.insertTable schema name { t with comment := some text }).WellKept)
    (ht : c.table? schema name = some t)
    (h : (emitScripts withTablespaces c).run e = (.ok scripts, e')) (f : Emission) :
    ∃ scripts' f', (emitScripts withTablespaces
        (c.insertTable schema name { t with comment := some text })).run f = (.ok scripts', f') ∧
      scripts'.before.Comments schema name text := by
  obtain ⟨before, hbefore⟩ := emitBefore_insertTable_ok (f := f) ht
    (u := { t with comment := some text }) rfl (emitScripts_eq_ok h).1
  obtain ⟨scripts', f', hscripts, rfl⟩ := emitScripts_of_before hbefore
  refine ⟨scripts', f', hscripts, Script.comments_of_mem ?_⟩
  obtain ⟨s, hs, ht', hmem⟩ := Catalog.mem_tables_of_table? (c.table?_insertTable schema name _)
  have hmem' := commentTable_mem_emitBefore hbefore hmem rfl
  rwa [(hkept.schemas.of_get? hs).name, ((hkept.schemas.of_get? hs).tables.of_get? ht').name]
    at hmem'

/-- A comment on a declared table, as a statement of its own behind the declaration. It is read as
one statement with the text that was written, the statements behind it stay as they are, and the
dump still converts. The script to run before loading has the comment unless a statement further
down decides on it anew. -/
theorem convert_comment (withTablespaces : Bool) (verdicts : List Verdict)
    (pre post : List (List Char)) (schema name text : String) {r : Conversion}
    (hpre : Ends pre) (hdeclared : ∃ t ∈ statements pre, declares schema name t = true)
    (hschema : '\n' ∉ schema.toList) (hname : '\n' ∉ name.toList)
    (htext : Holds (linesOf (commentStatement schema name text)))
    (hr : (convert withTablespaces verdicts (pre ++ post)).outcome = .ok r) :
    let comment := linesOf (commentStatement schema name text)
    ∃ t first following,
      Form.ofLine? t.statement.first = some (.commentTable schema name first) ∧
      commentText first t.statement.rest = text ∧
      statements (pre ++ post) = statements pre ++ following ∧
      statements (pre ++ comment ++ post) =
        statements pre ++ t :: following.map (Taken.down comment.length) ∧
      ∃ r', (convert withTablespaces verdicts (pre ++ comment ++ post)).outcome = .ok r' ∧
        ((∀ x ∈ following, settlesComment schema name x = false) →
          r'.scripts.before.Comments schema name text) := by
  intro comment
  have hconverts := converts_of_ok hr
  obtain ⟨d, -, hd⟩ := id hdeclared
  obtain ⟨hs, hn⟩ := isName_of_createTable (of_decide_eq_true hd)
  obtain ⟨hends, t, first, ht, hform, hread⟩ :=
    commentStatement_reads text hs hn hschema hname htext
  obtain ⟨following, hfollowing⟩ : ∃ ts, ts = (statements post).map (Taken.down pre.length) :=
    ⟨_, rfl⟩
  have hplain : statements (pre ++ post) = statements pre ++ following := by
    rw [statements_append hpre, hfollowing]
  have hdown : (statements post).map (Taken.down (pre ++ comment).length) =
      following.map (Taken.down comment.length) := by
    rw [hfollowing, List.map_map, List.length_append]
    exact List.map_congr_left fun x _ => (Taken.down_down x _ _).symm
  have hall : statements (pre ++ comment ++ post) =
      statements pre ++ t.down pre.length :: following.map (Taken.down comment.length) := by
    rw [statements_append (hpre.append hends), statements_append hpre, ht, hdown,
      List.map_singleton, List.append_assoc, List.singleton_append]
  refine ⟨t.down pre.length, first, following, hform, hread, hplain, hall, ?_⟩
  have hload := hconverts.loads
  rw [hplain, load_append] at hload
  obtain ⟨p, hp, hload⟩ := Option.bind_eq_some_iff.1 hload
  obtain ⟨u, hu⟩ := load_table hp (.inr hdeclared)
  have hcommented : load ({}, {}) (statements (pre ++ comment ++ post)) =
      load (p.1.insertTable schema name { u with comment := some text }, p.2) following := by
    rw [hall, load_append, hp, Option.bind_some, load_cons, advance_down,
      advance_commentTable hu hform, hread, Option.bind_some, load_down]
  rcases load_comment text hu hload with ⟨⟨x, hx, hsettles⟩, hsame⟩ | ⟨-, v, hv, hload'⟩
  · obtain ⟨r', hr', -⟩ := exists_converts (hcommented.trans hsame) hconverts.emits
    refine ⟨r', hr', fun hnone => ?_⟩
    rw [hnone x hx] at hsettles
    cases hsettles
  · have hfinal := hcommented.trans hload'
    have hkept := load_wellKept Catalog.wellKept_empty hfinal
    obtain ⟨scripts, e, hscripts, hcomments⟩ :=
      emitScripts_comment text hkept hv hconverts.emits (.start _ verdicts)
    obtain ⟨r', hr', -, rfl, -⟩ := exists_converts hfinal hscripts
    exact ⟨r', hr', fun _ => hcomments⟩

/-- The declaration of a table. -/
def tableOfNumbers : List (List Char) :=
  ["CREATE TABLE \"S\".\"T\"  (".toList, "  \"A\" INTEGER );".toList]

/-- Quotes, hyphens and a semicolon in a text of two lines. -/
theorem convert_comment_twoLines : ∃ r',
    (convert false [] (tableOfNumbers ++
      linesOf (commentStatement "S" "T" "isn''t -- a remark,\nbut ; a text") ++
      ["CREATE ROLE \"R\";".toList])).outcome = .ok r' ∧
    r'.scripts.before.Comments "S" "T" "isn''t -- a remark,\nbut ; a text" := by
  have hconverts : (convert false [] (tableOfNumbers ++
      ["CREATE ROLE \"R\";".toList])).outcome.toOption.isSome = true := by decide +kernel
  cases hr : (convert false [] (tableOfNumbers ++ ["CREATE ROLE \"R\";".toList])).outcome with
  | error failure =>
    rw [hr] at hconverts
    cases hconverts
  | ok r =>
    obtain ⟨t, first, following, -, -, hfollowing, -, r', hr', hcomments⟩ :=
      convert_comment false [] tableOfNumbers ["CREATE ROLE \"R\";".toList] "S" "T"
        "isn''t -- a remark,\nbut ; a text" (by decide +kernel) (by decide +kernel)
        (by decide) (by decide)
        ⟨by decide +kernel, by decide +kernel, by decide +kernel, by decide +kernel,
          by decide +kernel⟩ hr
    refine ⟨r', hr', hcomments ?_⟩
    have hrole : following =
        (statements (tableOfNumbers ++ ["CREATE ROLE \"R\";".toList])).drop 1 := by
      rw [hfollowing, List.drop_left' (by decide +kernel)]
    rw [hrole]
    decide +kernel

/-- A text with a line that ends in a semicolon does not come through. -/
theorem comment_cut_at_semicolon : ¬∀ (withTablespaces : Bool) (verdicts : List Verdict)
    (pre post : List (List Char)) (schema name text : String) (r : Conversion),
    Ends pre → (∃ t ∈ statements pre, declares schema name t = true) →
    '\n' ∉ schema.toList → '\n' ∉ name.toList →
    (∀ x ∈ statements post, settlesComment schema name x = false) →
    (convert withTablespaces verdicts (pre ++ post)).outcome = .ok r →
    ∃ r', (convert withTablespaces verdicts
        (pre ++ linesOf (commentStatement schema name text) ++ post)).outcome = .ok r' ∧
      r'.scripts.before.Comments schema name text := by
  intro h
  have hconverts : (convert false [] (tableOfNumbers ++ [])).outcome.toOption.isSome = true := by
    decide +kernel
  have hfails : (convert false [] (tableOfNumbers ++
      linesOf (commentStatement "S" "T" "a;\nb") ++ [])).outcome.toOption.isSome = false := by
    decide +kernel
  cases hr : (convert false [] (tableOfNumbers ++ [])).outcome with
  | error failure =>
    rw [hr] at hconverts
    cases hconverts
  | ok r =>
    obtain ⟨r', hr', -⟩ := h false [] tableOfNumbers [] "S" "T" "a;\nb" r (by decide +kernel)
      (by decide +kernel) (by decide) (by decide) (by decide) hr
    rw [hr'] at hfails
    cases hfails

end SchemaTransfer
