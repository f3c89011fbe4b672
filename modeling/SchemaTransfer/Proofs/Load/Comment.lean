import SchemaTransfer.Proofs.Dump.FirstLineText
import SchemaTransfer.Proofs.Lines
import SchemaTransfer.Proofs.Load.Index

/-!
# Comments on tables

The text of a comment goes over several lines, which are read as lines of any statement. Where these
leave them as they are, the text is the one that was written. A table with a comment takes what the
statements behind it do as it would without.
-/
namespace SchemaTransfer

namespace Dump
open Unicode Scan

theorem splitOn_semicolon (cs : List Char) :
    List.splitOn '\n' (cs ++ [';']) = terminated (List.splitOn '\n' cs) := by
  induction cs with
  | nil => rfl
  | cons c cs ih =>
    rw [List.cons_append, List.splitOn_cons_eq_if_modifyHead, List.splitOn_cons_eq_if_modifyHead,
      ih]
    obtain ⟨piece, pieces, hpieces⟩ := List.exists_cons_of_ne_nil (List.splitOn_ne_nil '\n' cs)
    rw [hpieces]
    split
    · rfl
    · cases pieces <;> rfl

/-- The statement that gives a table a comment. The quotes in the text are doubled already. -/
def commentStatement (schema name text : String) : String :=
  "COMMENT ON TABLE \"" ++ schema ++ "\".\"" ++ name ++ "\" IS '" ++ text ++ "';"

/-- The statement up to the text. -/
def commentStart (schema name : List Char) : List Char :=
  "COMMENT ON TABLE ".toList ++ inQuotesBoth schema name ++ " IS '".toList

theorem ofLine?_commentStart {schema name : String} (hs : IsName schema) (hn : IsName name)
    {text : List Char} (htext : '\n' ∉ text) :
    Form.ofLine? (commentStart schema.toList name.toList ++ text) =
      some (.commentTable schema name text) := by
  let comment : CommentText := ⟨.space, text, htext⟩
  have hline : commentStart schema.toList name.toList ++ text =
      "COMMENT ON TABLE ".toList ++ (inQuotesBoth schema.toList name.toList ++ comment.text) :=
    (List.append_assoc _ _ _).trans (List.append_assoc _ _ _)
  have hread := (FirstLineText.commentTable ⟨.ofName hs, .ofName hn⟩ comment).ofLine?_text
  have hform : Form.commentTable (QuotedName.ofName hs).name (QuotedName.ofName hn).name text =
      .commentTable schema name text := by simp
  rw [hline, ← hform]
  exact hread

theorem commentStatement_toList (schema name text : String) :
    (commentStatement schema name text).toList =
      commentStart schema.toList name.toList ++ (text.toList ++ ['\'']) ++ [';'] := by
  have hfirst : "COMMENT ON TABLE \"".toList = "COMMENT ON TABLE ".toList ++ ['"'] := rfl
  have hpoint : "\".\"".toList = ['"', '.', '"'] := rfl
  have hlast : "\" IS '".toList = '"' :: " IS '".toList := rfl
  have hend : "';".toList = ['\'', ';'] := rfl
  unfold commentStatement commentStart inQuotesBoth inQuotes
  simp only [String.toList_append, hfirst, hpoint, hlast, hend, List.append_assoc,
    List.cons_append, List.nil_append]

theorem not_mem_commentStart {schema name : List Char} (hs : '\n' ∉ schema) (hn : '\n' ∉ name) :
    '\n' ∉ commentStart schema name := by
  have hfirst : '\n' ∉ "COMMENT ON TABLE ".toList := by decide
  have hlast : '\n' ∉ " IS '".toList := by decide
  unfold commentStart inQuotesBoth inQuotes
  simp only [List.mem_append, List.mem_cons, List.not_mem_nil, or_false, hfirst, hlast, hs, hn,
    Char.reduceEq, not_false_eq_true]

end Dump

namespace Load
open Unicode Scan Dump

theorem commentText_quote {first : List Char} {rest : List (List Char)} {text : List Char}
    (h : ['\n'].intercalate (first :: rest) = text ++ ['\'']) :
    commentText first rest = .ofList text := by
  unfold commentText
  rw [h, trimRight_eq_rdropWhile, List.rdropWhile_concat_neg _ _ _ (by decide)]
  simp

/-- The statement is read as one, and its text is that of the comment. -/
theorem commentStatement_reads {schema name : String} (text : String) (hs : IsName schema)
    (hn : IsName name) (hsline : '\n' ∉ schema.toList) (hnline : '\n' ∉ name.toList)
    (h : Holds (linesOf (commentStatement schema name text))) :
    Ends (linesOf (commentStatement schema name text)) ∧
      ∃ t first, statements (linesOf (commentStatement schema name text)) = [t] ∧
        Form.ofLine? t.statement.first = some (.commentTable schema name first) ∧
        commentText first t.statement.rest = text := by
  obtain ⟨first, rest, hpieces, hlines⟩ :=
    Lines.splitOn_prepend (not_mem_commentStart hsline hnline) (text.toList ++ ['\''])
  have hall : linesOf (commentStatement schema name text) =
      terminated ((commentStart schema.toList name.toList ++ first) :: rest) := by
    rw [linesOf, commentStatement_toList, splitOn_semicolon, hlines]
  have htext : ['\n'].intercalate (first :: rest) = text.toList ++ ['\''] := by
    rw [← hpieces, List.intercalate_splitOn]
  have hlast : ∀ line ∈ rest.getLast?, allBlank line = false := by
    intro line hline
    have hquote := Lines.mem_getLast?_splitOn '\n' (show '\'' ≠ '\n' by decide) text.toList
    rw [hpieces] at hquote
    cases rest with
    | nil => cases hline
    | cons next rest =>
      refine List.all_eq_false.2 ⟨'\'', hquote line ?_, by decide⟩
      rwa [List.getLast?_cons_cons]
  rw [hall] at h ⊢
  obtain ⟨hends, t, ht, hstatement⟩ := h.statement_of_terminated hlast
  refine ⟨hends, t, first, ht, ?_, ?_⟩
  · have hfirst : '\n' ∉ first := Lines.not_mem_of_mem_splitOn (hpieces ▸ List.mem_cons_self)
    rw [hstatement]
    exact ofLine?_commentStart hs hn hfirst
  · rw [hstatement, commentText_quote htext, String.ofList_toList]

/-- Whether a statement decides on the comment of a table: it declares the table, or comments on
it. -/
def settlesComment (schema name : String) (t : Taken) : Bool :=
  match Form.ofLine? t.statement.first with
  | some (.createTable s n) => s = schema ∧ n = name
  | some (.commentTable s n _) => s = schema ∧ n = name
  | _ => false

theorem alterEdit_comment (context : String) (rest : List (List Char)) (t : Table)
    (text : Option String) : alterEdit context rest { t with comment := text } =
      (alterEdit context rest t).map fun t => { t with comment := text } := by
  obtain ⟨added, hadded⟩ := exists_added context rest
  rw [hadded, hadded, Option.map_map]
  refine Option.map_congr fun a _ => ?_
  cases a <;> rfl

theorem restartEdit_comment (column : String) (value : List Char) (rest : List (List Char))
    (t : Table) (text : Option String) :
    restartEdit column value rest { t with comment := text } =
      (restartEdit column value rest t).map fun t => { t with comment := text } := by
  unfold restartEdit
  simp only [Option.bind_eq_bind]
  rw [Option.map_bind]
  refine Option.bind_congr fun identity _ => ?_
  rw [Function.comp_apply, Option.map_bind]
  refine Option.bind_congr fun n _ => ?_
  rw [Function.comp_apply, ended_map]
  rfl

/-- What is done to a declared table, other than deciding on its comment, does not depend on the
comment and leaves it as it is. -/
theorem touches_comment {rest : List (List Char)} {schema name : String} {form : Form}
    {change : Relation → Option Relation} (h : Touches rest schema name form change)
    (hdeclares : form ≠ .createTable schema name)
    (hcomments : ∀ text, form ≠ .commentTable schema name text) :
    ∃ g : Table → Option Table,
      (∀ r t, r.table = some t → change r = (g t).map fun t => { table := some t }) ∧
      ∀ t text, g { t with comment := text } = (g t).map fun t => { t with comment := text } := by
  have honTable (g : Table → Option Table) (r : Relation) (t : Table) (ht : r.table = some t) :
      onTable g r = (g t).map fun t => { table := some t } := by
    rw [onTable, ht, Option.bind_some]
  cases h with
  | createTable => exact absurd rfl hdeclares
  | commentTable text => exact absurd rfl (hcomments text)
  | alterTable => exact ⟨_, honTable _, alterEdit_comment _ rest⟩
  | restartIdentity column value => exact ⟨_, honTable _, restartEdit_comment column value rest⟩
  | createIndex unique indexSchema index =>
    refine ⟨_, honTable _, fun t text => ?_⟩
    unfold indexEdit
    rw [Option.map_map]
    rfl
  | commentColumn column text =>
    refine ⟨fun t => (t.column? column).map fun _ =>
      t.modifyColumn column fun k => { k with comment := some (commentText text rest) },
      fun r t ht => ?_, fun t text => ?_⟩
    · rw [columnCommentEdit, ht, Option.map_map]
      rfl
    · rw [Option.map_map]
      rfl

section

variable {p q : Catalog × Context} {schema name : String} {t : Table}

/-- The table with the comment comes to what it comes to without, but for the comment. -/
theorem advance_comment (text : String) {x : Taken} (ht : p.1.table? schema name = some t)
    (hsettles : settlesComment schema name x = false) (h : advance p x.statement = some q) :
    ∃ t', q.1.table? schema name = some t' ∧
      advance (p.1.insertTable schema name { t with comment := some text }, p.2) x.statement =
        some (q.1.insertTable schema name { t' with comment := some text }, q.2) := by
  obtain ⟨form, hform, hcontext, hedits⟩ := advance_eq_some h
  have hadvance (c : Catalog) : advance (c, p.2) x.statement =
      (c.editAll (edits p.2 x.statement.rest form)).map (·, q.2) := by
    rw [advance, hform, Option.bind_some, hcontext]
  rw [hadvance]
  rcases touches_or p.2 x.statement.rest schema name form with
    ⟨change, htouches, hsingle⟩ | ⟨hnot, -⟩
  · have hdeclares : form ≠ .createTable schema name := by
      rintro rfl
      simp [settlesComment, hform] at hsettles
    have hcomments : ∀ text, form ≠ .commentTable schema name text := by
      rintro text rfl
      simp [settlesComment, hform] at hsettles
    obtain ⟨g, hchange, hg⟩ := touches_comment htouches hdeclares hcomments
    rw [hsingle, Catalog.editAll_singleton] at hedits ⊢
    rw [edit_of_table _ ht (hchange · t)] at hedits
    obtain ⟨t', ht', hq⟩ := Option.map_eq_some_iff.1 hedits
    refine ⟨t', by rw [← hq, Catalog.table?_insertTable], ?_⟩
    rw [edit_of_table _ (Catalog.table?_insertTable _ _ _ _) (hchange · _), hg, ht', ← hq]
    simp only [Option.map_some, Catalog.insertTable_insertTable]
  · refine ⟨t, by rw [q.1.table?_eq_content, Catalog.content_editAll hedits hnot,
      ← p.1.table?_eq_content, ht], ?_⟩
    -- Commenting is an edit of the table, which the statement is not about.
    have hcomm := p.1.edit_editAll_comm (e := ⟨.relation schema name, fun _ =>
      some ({ table := some { t with comment := some text } } : Relation)⟩) hnot
    rw [hedits] at hcomm
    have hcommented : (p.1.insertTable schema name { t with comment := some text }).editAll
        (edits p.2 x.statement.rest form) =
          some (q.1.insertTable schema name { t with comment := some text }) := hcomm
    rw [hcommented, Option.map_some]

/-- Behind a statement that decides on it, the comment that a table had counts no more. -/
theorem advance_settled {x : Taken} (comment : Option String)
    (ht : p.1.table? schema name = some t) (hsettles : settlesComment schema name x = true) :
    advance (p.1.insertTable schema name { t with comment }, p.2) x.statement =
      advance p x.statement := by
  have hedit {change : Relation → Option Relation} {g : Table → Option Table}
      (hchange : ∀ (r : Relation) (t : Table), r.table = some t →
        change r = (g t).map fun t => { table := some t })
      (hg : g { t with comment } = g t) :
      (p.1.insertTable schema name { t with comment }).edit ⟨.relation schema name, change⟩ =
        p.1.edit ⟨.relation schema name, change⟩ := by
    rw [edit_of_table _ ht (hchange · t),
      edit_of_table _ (Catalog.table?_insertTable _ _ _ _) (hchange · _), hg]
    exact Option.map_congr fun u _ => Catalog.insertTable_insertTable _ _ _ _ _
  unfold settlesComment at hsettles
  unfold advance
  split at hsettles
  · next s n hform =>
    obtain ⟨rfl, rfl⟩ := of_decide_eq_true hsettles
    rw [hform, Option.bind_some, Option.bind_some, edits, Catalog.editAll_singleton,
      Catalog.editAll_singleton]
    refine congrArg _ (hedit (g := fun _ => (TableBody.read (TableBody.display s n) 0
      { table := { name := n } } x.statement.rest).result?.map (·.table)) (fun r t _ => ?_) rfl)
    rw [Option.map_map]
    rfl
  · next s n text hform =>
    obtain ⟨rfl, rfl⟩ := of_decide_eq_true hsettles
    rw [hform, Option.bind_some, Option.bind_some, edits, Catalog.editAll_singleton,
      Catalog.editAll_singleton]
    refine congrArg _ (hedit (g := fun t =>
      some { t with comment := some (commentText text x.statement.rest) }) (fun r t ht => ?_) rfl)
    unfold commentEdit
    rw [ht]
    rfl
  · cases hsettles

/-- The statement that gives a declared table a comment. -/
theorem advance_commentTable {s : Statement} {first : List Char}
    (ht : p.1.table? schema name = some t)
    (hform : Form.ofLine? s.first = some (.commentTable schema name first)) :
    advance p s = some (p.1.insertTable schema name
      { t with comment := some (commentText first s.rest) }, p.2) := by
  rw [advance, hform, Option.bind_some, edits, Catalog.editAll_singleton,
    edit_of_table p.1 ht (g := fun t => some { t with comment := some (commentText first s.rest) })]
  · rfl
  · intro r hr
    unfold commentEdit
    rw [hr]
    rfl

/-- A declared table stays declared. -/
theorem advance_table {x : Taken} (ht : p.1.table? schema name = some t)
    (h : advance p x.statement = some q) : ∃ t', q.1.table? schema name = some t' := by
  cases hdeclares : declares schema name x with
  | true =>
    obtain ⟨t', ht', -⟩ := advance_declares h hdeclares
    exact ⟨t', ht'⟩
  | false =>
    have hstep := advance_indexes h hdeclares
    rw [ht] at hstep
    obtain ⟨t', ht', -⟩ := hstep
    exact ⟨t', ht'⟩

theorem load_table {ts : List Taken} (h : load p ts = some q)
    (hdeclared : (∃ t, p.1.table? schema name = some t) ∨ ∃ x ∈ ts, declares schema name x = true) :
    ∃ t, q.1.table? schema name = some t := by
  induction ts generalizing p with
  | nil =>
    cases h
    exact hdeclared.resolve_right fun ⟨x, hx, _⟩ => List.not_mem_nil hx
  | cons x ts ih =>
    obtain ⟨p', hp', h⟩ := Option.bind_eq_some_iff.1 (load_cons p x ts ▸ h)
    refine ih h ?_
    rcases hdeclared with ⟨t, ht⟩ | ⟨y, hy, hdeclares⟩
    · exact .inl (advance_table ht hp')
    · rcases List.mem_cons.1 hy with rfl | hy
      · obtain ⟨t, ht, -⟩ := advance_declares hp' hdeclares
        exact .inl ⟨t, ht⟩
      · exact .inr ⟨y, hy, hdeclares⟩

/-- Statements do with a table that has a comment as they would without. The comment stays unless
one of them decides on it. -/
theorem load_comment (text : String) {ts : List Taken} (ht : p.1.table? schema name = some t)
    (h : load p ts = some q) :
    let commented := load (p.1.insertTable schema name { t with comment := some text }, p.2) ts
    ((∃ x ∈ ts, settlesComment schema name x = true) ∧ commented = some q) ∨
    ((∀ x ∈ ts, settlesComment schema name x = false) ∧ ∃ t', q.1.table? schema name = some t' ∧
      commented = some (q.1.insertTable schema name { t' with comment := some text }, q.2)) := by
  induction ts generalizing p t with
  | nil =>
    cases h
    exact .inr ⟨fun _ hx => absurd hx List.not_mem_nil, t, ht, rfl⟩
  | cons x ts ih =>
    obtain ⟨p', hp', h⟩ := Option.bind_eq_some_iff.1 (load_cons p x ts ▸ h)
    dsimp only
    rw [load_cons]
    cases hsettles : settlesComment schema name x with
    | true =>
      rw [advance_settled (some text) ht hsettles, hp']
      exact .inl ⟨⟨x, List.mem_cons_self, hsettles⟩, h⟩
    | false =>
      obtain ⟨t', ht', hadvance⟩ := advance_comment text ht hsettles hp'
      rw [hadvance]
      rcases ih ht' h with ⟨⟨y, hy, hlater⟩, hrest⟩ | ⟨hnone, t'', ht'', hrest⟩
      · exact .inl ⟨⟨y, List.mem_cons_of_mem _ hy, hlater⟩, hrest⟩
      · exact .inr ⟨List.forall_mem_cons.2 ⟨hsettles, hnone⟩, t'', ht'', hrest⟩

end

end Load

end SchemaTransfer
