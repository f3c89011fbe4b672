import SchemaTransfer.Dump.ColumnLine
import SchemaTransfer.Proofs.Dump.LineEnd

/-!
# Column lines with more blanks at the end

The blanks at the end of a column line say nothing, except behind `WITH DEFAULT`: there a blank more
than needed makes an empty text the default value.
-/
namespace SchemaTransfer.Dump.Widening
open Unicode Scan ColumnLine

variable {x : Widening}

/-- What `WITH DEFAULT` means in front of a line end. -/
def bareDefault (e : LineEnd) : ValueClause := if e.isTight then .implicitDefault else .default []

/-- What a clause may become when the line gets more blanks. -/
inductive ClauseLike (x : Widening) : ValueClause → ValueClause → Prop
  | same {clause : ValueClause}
      (value : clause = .implicitDefault → ¬"WITH DEFAULT".toList <:+ x.front) :
      ClauseLike x clause clause
  | generated {always : Bool} {text text' : List Char}
      (trimmed : trimRight text = trimRight text') :
      ClauseLike x (.generated always text) (.generated always text')
  | bare (value : "WITH DEFAULT".toList <:+ x.front) :
      ClauseLike x (bareDefault x.old) (bareDefault x.new)

def ClauseEndLike (x : Widening) (a b : ValueClause × Bool) : Prop :=
  ClauseLike x a.1 b.1 ∧ a.2 = b.2

theorem defaultText?_text (e : LineEnd) :
    defaultText? e.text = some ([], e.separator.getD false) := by
  have hshortest := shortest?_append List.not_mem_nil trivial e.lineEnd?_text
  rw [List.nil_append] at hshortest
  rw [defaultText?, e.separator?_text, hshortest]
  rfl

/-- A tight end leaves no place for a value; any other end leaves one for an empty value. -/
theorem afterBlanks?_text (e : LineEnd) : afterBlanks? defaultText? e.text =
    if e.isTight then none else some ([], e.separator.getD false) := by
  cases e with
  | bare pad =>
    obtain ⟨cs, hblank, hline⟩ := pad
    induction cs with
    | nil => rfl
    | cons c cs ih =>
      obtain ⟨hc, hcs⟩ := List.forall_mem_cons.1 (List.all_eq_true.1 hblank)
      have hblank' : allBlank cs = true := List.all_eq_true.2 hcs
      have hline' := List.not_mem_of_not_mem_cons hline
      have hlater : afterBlanks? defaultText? cs = _ := ih hblank' hline'
      have hhere : defaultText? cs = _ := defaultText?_text (.bare ⟨cs, hblank', hline'⟩)
      rw [LineEnd.text, afterBlanks?_cons hc, hlater, hhere]
      cases cs <;> rfl
  | separated pad apart closes tail =>
    obtain ⟨cs, hblank, hline⟩ := pad
    induction cs with
    | nil => exact absurd rfl apart
    | cons c cs ih =>
      obtain ⟨hc, hcs⟩ := List.forall_mem_cons.1 (List.all_eq_true.1 hblank)
      have hblank' : allBlank cs = true := List.all_eq_true.2 hcs
      have hline' := List.not_mem_of_not_mem_cons hline
      rw [LineEnd.text, List.cons_append, afterBlanks?_cons hc]
      by_cases hapart : cs = []
      · subst hapart
        have hsep : isBlank (if closes then ')' else ',') = false := by cases closes <;> decide
        have hnone : defaultText? ((if closes then ')' else ',') :: tail.chars) = none := by
          rw [defaultText?, if_pos]
          cases closes <;> simp [separator?, tail.blank]
        rw [List.nil_append, afterBlanks?_of_not_blank hsep, hnone]
        rfl
      · have hlater : afterBlanks? defaultText? (cs ++ _) = _ := ih hblank' hline' hapart
        have hhere : defaultText? (cs ++ _) = _ :=
          defaultText?_text (.separated ⟨cs, hblank', hline'⟩ hapart closes tail)
        have hmore :
            (LineEnd.separated ⟨c :: cs, hblank, hline⟩ apart closes tail).isTight = false := by
          simp [LineEnd.isTight, hapart]
        rw [hlater, hhere, hmore]
        split <;> rfl

theorem isEndChar_of_separator? {cs : List Char} (h : (separator? cs).isSome) :
    ∀ c ∈ cs, LineEnd.isEndChar c = true := by
  cases cs with
  | nil => nofun
  | cons c cs =>
    rw [separator?_cons] at h
    split at h
    · next hblank =>
      refine List.forall_mem_cons.2 ⟨?_, fun d hd =>
        LineEnd.isEndChar_of_isBlank (List.all_eq_true.1 hblank d hd)⟩
      split at h
      · next hc => subst hc; decide
      · split at h
        · next hc => subst hc; decide
        · cases h
    · cases h

theorem isEndChar_of_lineEnd? {cs : List Char} (h : (lineEnd? cs).isSome) :
    ∀ c ∈ cs, LineEnd.isEndChar c = true := by
  unfold lineEnd? at h
  split at h
  · next hblank => exact fun c hc => LineEnd.isEndChar_of_isBlank (List.all_eq_true.1 hblank c hc)
  · rw [Option.or_none] at h
    cases hblanks : blanks? cs with
    | none =>
      rw [hblanks] at h
      cases h
    | some rest =>
      rw [hblanks] at h
      obtain ⟨used, rfl, hused⟩ := passes_blanks? hblanks
      intro c hc
      rcases List.mem_append.1 hc with hc | hc
      · exact LineEnd.isEndChar_of_isBlank (hused c hc)
      · exact isEndChar_of_separator? h c hc

theorem steady_defaultText? (x : Widening) : Steady x Eq defaultText? := by
  have hshortest : Steady x Eq (shortest? lineEnd?) := by
    refine x.steady_lineEnd?.shortest (fun a b h => by rw [h]) (fun c a b h => by rw [h])
      (rel_of_eq ?_)
    have hold := shortest?_append List.not_mem_nil trivial x.old.lineEnd?_text
    have hnew := shortest?_append List.not_mem_nil trivial x.new.lineEnd?_text
    rw [List.nil_append] at hold hnew
    rw [hold, hnew, x.separator]
  intro text htext
  rw [defaultText?, defaultText?, x.separator?_append_text]
  split
  · exact .none
  · exact hshortest text htext

/-- The value behind `WITH DEFAULT`. -/
def defaultEnd? (cs : List Char) : Option (ValueClause × Bool) :=
  ((afterBlanks? defaultText? cs).map fun r => (.default r.1, r.2)).or
    ((lineEnd? cs).map (.implicitDefault, ·))

theorem withDefault?_eq (cs : List Char) : withDefault? cs =
    (blanks? cs).bind fun cs => (literal? "WITH DEFAULT" cs).bind defaultEnd? := by
  unfold withDefault? defaultEnd?
  cases blanks? cs with
  | none => rfl
  | some cs =>
    cases hword : literal? "WITH DEFAULT" cs with
    | none => simp [hword]
    | some cs =>
      cases hvalue : afterBlanks? defaultText? cs with
      | none => simp [hword, hvalue, Option.map_eq_bind]
      | some r => simp [hword, hvalue]

theorem defaultEnd?_text (e : LineEnd) :
    defaultEnd? e.text = some (bareDefault e, e.separator.getD false) := by
  rw [defaultEnd?, afterBlanks?_text, e.lineEnd?_text, bareDefault]
  split <;> rfl

/-- A line whose end is read behind other characters does not end in `WITH DEFAULT`. -/
theorem not_suffix_of_lineEnd? {text more : List Char} (htext : text <:+ x.front)
    (hvisible : endsVisible text = true) (h : (lineEnd? (text ++ more)).isSome) :
    ¬"WITH DEFAULT".toList <:+ x.front := by
  intro hword
  obtain ⟨init, c, rfl, -⟩ := exists_concat_of_endsVisible hvisible
  have hc := isEndChar_of_lineEnd? h c (by simp)
  obtain ⟨front, hfront⟩ := htext
  obtain ⟨front', hfront'⟩ := hword
  have hlast : (front ++ (init ++ [c])).getLast? = (front' ++ "WITH DEFAULT".toList).getLast? := by
    rw [hfront, hfront']
  rw [← List.append_assoc, List.getLast?_concat,
    List.getLast?_append_of_ne_nil _ (by decide)] at hlast
  obtain rfl : c = 'T' := Option.some.inj hlast
  cases hc

theorem rel_defaultEnd? {text : List Char} (htext : "WITH DEFAULT".toList ++ text <:+ x.front) :
    Option.Rel (ClauseEndLike x) (defaultEnd? (text ++ x.old.text))
      (defaultEnd? (text ++ x.new.text)) := by
  have hsuffix := (List.suffix_append "WITH DEFAULT".toList text).trans htext
  rcases x.unpadded.suffix hsuffix with rfl | hvisible
  · rw [List.append_nil] at htext
    rw [List.nil_append, List.nil_append, defaultEnd?_text, defaultEnd?_text, x.separator]
    exact .some ⟨.bare htext, rfl⟩
  · refine rel_or ?_ ?_
    · refine rel_map (fun a b h => ?_) (rel_afterBlanks? (fun text htext _ =>
        x.steady_defaultText? text htext) hsuffix hvisible)
      subst h
      exact ⟨.same nofun, rfl⟩
    · have hend := x.steady_lineEnd? text hsuffix
      cases hold : lineEnd? (text ++ x.old.text) with
      | none =>
        rw [hold] at hend
        generalize lineEnd? (text ++ x.new.text) = b at hend
        cases hend
        exact .none
      | some closes =>
        have hword := not_suffix_of_lineEnd? hsuffix hvisible
          (Option.isSome_iff_exists.2 ⟨closes, hold⟩)
        rw [hold] at hend
        generalize lineEnd? (text ++ x.new.text) = b at hend
        cases hend with
        | some h => exact .some ⟨.same fun _ => hword, h⟩

theorem steady_withDefault? (x : Widening) : Steady x (ClauseEndLike x) withDefault? := by
  have hword : Steady x (ClauseEndLike x) fun cs =>
      (literal? "WITH DEFAULT" cs).bind defaultEnd? := by
    intro text htext
    dsimp only
    rw [stopsAt_text (by decide) x.old text, stopsAt_text (by decide) x.new text]
    cases hfound : literal? "WITH DEFAULT" text with
    | none => exact .none
    | some rest =>
      obtain rfl := literal?_eq_some.1 hfound
      exact rel_defaultEnd? htext
  intro text htext
  rw [withDefault?_eq, withDefault?_eq]
  exact hword.blanks (dead_literal (by decide)) text htext

section

variable {α : Type} {R : α → α → Prop}

theorem Steady.generated {q : Bool → List Char → Option α} (hq : ∀ always, Steady x R (q always))
    (hdead : ∀ always, Dead (q always)) :
    Steady x R fun cs => (generated? cs).bind fun r => q r.1 r.2 := by
  have hmode (mode : String) : Steady x R fun cs =>
      (literal? " AS " cs).bind (q (mode == "ALWAYS")) :=
    (hq _).literal_of_dead (hdead _)
  have hword : Steady x R fun cs => (literal? "GENERATED " cs).bind fun cs =>
      (oneOf? ["BY DEFAULT", "ALWAYS"] cs).bind fun r =>
        (literal? " AS " r.2).bind (q (r.1 == "ALWAYS")) :=
    Steady.literal_of_dead (.oneOf (by decide) hmode) (dead_oneOf (by decide))
  intro text htext
  have hrel := hword.blanks (dead_literal (by decide)) text htext
  simpa only [generated?, Option.bind_eq_bind, Option.bind_assoc, Option.pure_def,
    Option.bind_some] using hrel

end

theorem identity?_eq (cs : List Char) : identity? cs =
    (generated? cs).bind fun r => (literal? "IDENTITY" r.2).bind fun cs =>
      (literal? "(" (trimLeft cs)).bind fun cs => (lineEnd? cs).map (.identity r.1, ·) := by
  simp only [identity?, Option.bind_eq_bind, Option.map_eq_bind, Option.pure_def]
  rfl

theorem steady_identity? (x : Widening) : Steady x (ClauseEndLike x) identity? := by
  have hend (always : Bool) : Steady x (ClauseEndLike x) fun cs =>
      (lineEnd? cs).map (ValueClause.identity always, ·) :=
    x.steady_lineEnd?.map fun a b h => ⟨.same nofun, h⟩
  have hopen (always : Bool) : Steady x (ClauseEndLike x) fun cs =>
      (literal? "(" (trimLeft cs)).bind fun cs =>
        (lineEnd? cs).map (ValueClause.identity always, ·) :=
    Steady.trimLeft (.literal (by decide) (hend always)) (dead_literal (by decide))
  intro text htext
  rw [identity?_eq, identity?_eq]
  exact Steady.generated (fun always => (hopen always).literal (by decide))
    (fun always => dead_literal (w := "IDENTITY") (by decide)) text htext

/-- The parenthesis that ends an expression, and the end of the line. -/
def expressionEnd? (cs : List Char) : Option Bool := (literal? ")" cs).bind lineEnd?

theorem expression?_eq (cs : List Char) : expression? cs =
    (generated? cs).bind fun r => (literal? "(" r.2).bind fun cs =>
      (shortest? expressionEnd? cs).map fun e => (.generated r.1 e.1, e.2) := by
  simp only [expression?, Option.bind_eq_bind, Option.map_eq_bind, Option.pure_def]
  rfl

/-- A parenthesis at the end of a line ends an expression too, of which the blanks before it are
then a part. -/
theorem shortest?_expressionEnd?_text (e : LineEnd) : shortest? expressionEnd? e.text =
    if e.separator = some true then some (e.pad, false) else none := by
  have hnone {cs : List Char} (h : ')' ∉ cs) : shortest? expressionEnd? cs = none := by
    refine shortest?_eq_none fun rest hrest => ?_
    have hword : literal? ")" rest = none := literal?_eq_none fun more heq =>
      h (hrest.mem (heq ▸ List.mem_cons_self))
    rw [expressionEnd?, hword, Option.bind_none]
  cases e with
  | bare pad => exact hnone (not_mem_of_all pad.blank (by decide))
  | separated pad apart closes tail =>
    cases closes with
    | false =>
      refine hnone fun hmem => ?_
      rcases List.mem_append.1 hmem with hmem | hmem
      · exact not_mem_of_all pad.blank (by decide) hmem
      · exact not_mem_of_all tail.blank (by decide)
          ((List.mem_cons.1 hmem).resolve_left (by decide))
    | true =>
      have hend : expressionEnd? (')' :: tail.chars) = some false :=
        (LineEnd.bare tail).lineEnd?_text
      refine shortest?_append pad.line (solid_of_forall (q := fun c => isBlank c = true)
        (fun c cs hc => ?_) (List.all_eq_true.1 pad.blank) _) hend
      rw [expressionEnd?, literal?_cons_of_ne (d := ')') rfl, Option.bind_none]
      rintro rfl
      cases hc

theorem steady_expression? (x : Widening) : Steady x (ClauseEndLike x) expression? := by
  have hend : Steady x Eq expressionEnd? := .character rfl (by decide) x.steady_lineEnd?
  have hshortest : Steady x (fun a b => trimRight a.1 = trimRight b.1 ∧ a.2 = b.2)
      (shortest? expressionEnd?) := by
    refine hend.shortest (fun a b h => ⟨rfl, h⟩) (fun c a b h => ⟨?_, h.2⟩) ?_
    · rw [← trimRight_cons_trimRight, h.1, trimRight_cons_trimRight]
    · rw [shortest?_expressionEnd?_text, shortest?_expressionEnd?_text, x.separator]
      split
      · refine .some ⟨?_, rfl⟩
        have hblank (e : LineEnd) : trimRight e.pad = [] := by
          rw [← List.nil_append e.pad, trimRight_append_of_allBlank e.allBlank_pad]
          rfl
        rw [hblank, hblank]
      · exact .none
  have hopen (always : Bool) : Steady x (ClauseEndLike x) fun cs => (literal? "(" cs).bind fun cs =>
      (shortest? expressionEnd? cs).map fun e => (ValueClause.generated always e.1, e.2) :=
    .literal (by decide) (hshortest.map fun a b h => ⟨.generated h.1, h.2⟩)
  intro text htext
  rw [expression?_eq, expression?_eq]
  exact Steady.generated hopen (fun always => dead_literal (w := "(") (by decide)) text htext

theorem clause?_eq (cs : List Char) : clause? cs =
    (withDefault? cs).or ((identity? cs).or ((expression? cs).or
      ((lineEnd? cs).map (.nothing, ·)))) := by
  simp only [clause?, Option.orElse_eq_orElse, Option.orElse_eq_or]

theorem steady_clause? (x : Widening) : Steady x (ClauseEndLike x) clause? := by
  intro text htext
  rw [clause?_eq, clause?_eq]
  have hnothing : Steady x (ClauseEndLike x) fun cs => (lineEnd? cs).map (ValueClause.nothing, ·) :=
    x.steady_lineEnd?.map fun a b h => ⟨.same nofun, h⟩
  exact x.steady_withDefault?.or (x.steady_identity?.or (x.steady_expression?.or hnothing)) text
    htext

/-- Related attributes: whether `NOT NULL` is among them, the clause, and whether the line closes
the list. -/
def AttributesLike (x : Widening) (a b : Bool × ValueClause × Bool) : Prop :=
  a.1 = b.1 ∧ ClauseEndLike x a.2 b.2

theorem attributes?_eq (cs : List Char) : attributes? cs =
    ((blanks? cs).bind fun cs => (literal? "NOT NULL" cs).bind fun cs =>
      (clause? cs).map (true, ·)).or ((clause? cs).map (false, ·)) := by
  simp only [attributes?, Option.orElse_eq_orElse, Option.orElse_eq_or, Option.bind_eq_bind,
    Option.map_eq_bind, Option.pure_def]
  rfl

theorem steady_attributes? (x : Widening) : Steady x (AttributesLike x) attributes? := by
  have hclause (notNull : Bool) :
      Steady x (AttributesLike x) fun cs => (clause? cs).map (notNull, ·) :=
    x.steady_clause?.map fun a b h => ⟨rfl, h⟩
  intro text htext
  rw [attributes?_eq, attributes?_eq]
  exact (Steady.blanks ((hclause true).literal (by decide)) (dead_literal (by decide))).or
    (hclause false) text htext

theorem dead_withDefault? : Dead withDefault? := by
  intro cs hcs
  rw [withDefault?_eq]
  exact Dead.blanks (dead_literal (by decide)) cs hcs

theorem dead_generated? {α : Type} {q : Bool × List Char → Option α} :
    Dead fun cs => (generated? cs).bind q := by
  intro cs hcs
  have hnone : generated? cs = none := Dead.blanks (dead_literal (by decide)) cs hcs
  dsimp only
  rw [hnone]
  rfl

/-- A line end has no attributes. -/
theorem attributes?_text (e : LineEnd) :
    attributes? e.text = some (false, .nothing, e.separator.getD false) := by
  have hdefault : withDefault? e.text = none := dead_withDefault?.apply_text e
  have hidentity : identity? e.text = none := by
    rw [identity?_eq]
    exact dead_generated?.apply_text e
  have hexpression : expression? e.text = none := by
    rw [expression?_eq]
    exact dead_generated?.apply_text e
  have hnull : ((blanks? e.text).bind fun cs => (literal? "NOT NULL" cs).bind fun cs =>
      (clause? cs).map (true, ·)) = none :=
    (Dead.blanks (dead_literal (by decide))).apply_text e
  rw [attributes?_eq, hnull, clause?_eq, hdefault, hidentity, hexpression, e.lineEnd?_text]
  rfl

theorem shortest?_attributes?_text (e : LineEnd) : shortest? attributes? e.text =
    some ([], false, .nothing, e.separator.getD false) := by
  have hshortest := shortest?_append List.not_mem_nil trivial (attributes?_text e)
  rwa [List.nil_append] at hshortest

/-- Two readings behind the name of a column: the same type, and related attributes. -/
def TypeLike (x : Widening) (a b : List Char × Bool × ValueClause × Bool) : Prop :=
  trim a.1 = trim b.1 ∧ AttributesLike x a.2 b.2

theorem rel_typed {text : List Char} (htext : text <:+ x.front)
    (hvisible : endsVisible text = true) :
    Option.Rel (TypeLike x) (shortestNonempty? attributes? (text ++ x.old.text))
      (shortestNonempty? attributes? (text ++ x.new.text)) := by
  have hshortest : Steady x (fun a b => a.1 = b.1 ∧ AttributesLike x a.2 b.2)
      (shortest? attributes?) := by
    refine x.steady_attributes?.shortest (fun a b h => ⟨rfl, h⟩)
      (fun c a b h => ⟨congrArg (c :: ·) h.1, h.2⟩) ?_
    rw [shortest?_attributes?_text, shortest?_attributes?_text, x.separator]
    exact .some ⟨rfl, rfl, .same nofun, rfl⟩
  cases text with
  | nil => cases hvisible
  | cons c text =>
    rw [List.cons_append, List.cons_append, shortestNonempty?, shortestNonempty?]
    split
    · exact .none
    · exact rel_map (fun a b h => ⟨congrArg (fun cs => trim (c :: cs)) h.1, h.2⟩)
        (hshortest text ((List.suffix_cons c text).trans htext))

/-- A type and what stands behind it, after blanks. -/
def typed? (cs : List Char) : Option (List Char × Bool × ValueClause × Bool) :=
  afterBlanks? (shortestNonempty? attributes?) cs

/-- A single character that ends no line, in front of a row of blanks. -/
theorem shortestNonempty?_blanks {c : Char} (hc : c ≠ '\n') (tail : Blanks) :
    shortestNonempty? attributes? (c :: tail.chars) = some ([c], false, .nothing, false) := by
  have htail := shortest?_attributes?_text (.bare tail)
  rw [LineEnd.text] at htail
  rw [shortestNonempty?, htail, if_neg (by simpa using hc)]
  rfl

/-- Where no type is written, a separator is taken for one. -/
theorem typed?_separated {pad : List Char} (hpad : allBlank pad = true) (hne : pad ≠ [])
    (closes : Bool) (tail : Blanks) :
    typed? (pad ++ (if closes then ')' else ',') :: tail.chars) =
      some ([if closes then ')' else ','], false, .nothing, false) := by
  unfold typed?
  induction pad with
  | nil => exact absurd rfl hne
  | cons c cs ih =>
    obtain ⟨hc, hcs⟩ := List.forall_mem_cons.1 (List.all_eq_true.1 hpad)
    rw [List.cons_append, afterBlanks?_cons hc]
    by_cases hapart : cs = []
    · subst hapart
      rw [List.nil_append, afterBlanks?_of_not_blank (by cases closes <;> decide),
        shortestNonempty?_blanks (by cases closes <;> decide)]
      rfl
    · rw [ih (List.all_eq_true.2 hcs) hapart]
      rfl

/-- Where neither a type nor a separator is written, the last of several blanks is taken for a
type. -/
theorem typed?_blanks (pad : Blanks) :
    if pad.chars.length ≤ 1 then typed? pad.chars = none
    else ∃ c, isBlank c = true ∧ typed? pad.chars = some ([c], false, .nothing, false) := by
  unfold typed?
  obtain ⟨cs, hblank, hline⟩ := pad
  induction cs with
  | nil => rfl
  | cons c cs ih =>
    obtain ⟨hc, hcs⟩ := List.forall_mem_cons.1 (List.all_eq_true.1 hblank)
    have hlater := ih (List.all_eq_true.2 hcs) (List.not_mem_of_not_mem_cons hline)
    dsimp only at hlater ⊢
    rw [afterBlanks?_cons hc]
    match cs with
    | [] => rfl
    | [d] =>
      have hd : d ≠ '\n' := by
        rintro rfl
        simp at hline
      have hhere := shortestNonempty?_blanks hd ⟨[], rfl, List.not_mem_nil⟩
      rw [if_pos (by simp)] at hlater
      rw [hlater, hhere, if_neg (by simp)]
      exact ⟨d, hcs d List.mem_cons_self, rfl⟩
    | d :: d' :: ds =>
      rw [if_neg (by simp)] at hlater ⊢
      obtain ⟨b, hb, hlast⟩ := hlater
      exact ⟨b, hb, by rw [hlast]; rfl⟩

theorem trim_blank {c : Char} (h : isBlank c = true) : trim [c] = [] := by
  simp [trim, trimLeft, h, trimRight]

theorem exists_typed?_text {r : List Char × Bool × ValueClause × Bool}
    (h : typed? x.old.text = some r) : ∃ r', typed? x.new.text = some r' ∧ TypeLike x r r' := by
  have hsame {closes : Bool} : ClauseEndLike x (.nothing, closes) (.nothing, closes) :=
    ⟨.same nofun, rfl⟩
  have hseparator := x.separator
  have hwider := x.wider
  cases hold : x.old with
  | bare pad =>
    cases hnew : x.new with
    | bare pad' =>
      rw [hold, hnew] at hwider
      rw [hold, LineEnd.text] at h
      have hpad := typed?_blanks pad
      have hpad' := typed?_blanks pad'
      split at hpad
      · cases hpad.symm.trans h
      · next hlong =>
        obtain ⟨c, hc, hr⟩ := hpad
        obtain rfl := Option.some.inj (hr.symm.trans h)
        have hlong' : ¬pad'.chars.length ≤ 1 := fun hshort => hlong (hwider.trans hshort)
        rw [if_neg hlong'] at hpad'
        obtain ⟨c', hc', hr'⟩ := hpad'
        exact ⟨_, hr', by rw [trim_blank hc, trim_blank hc'], rfl, hsame⟩
    | separated pad' apart' closes' tail' =>
      rw [hold, hnew] at hseparator
      cases hseparator
  | separated pad apart closes tail =>
    cases hnew : x.new with
    | bare pad' =>
      rw [hold, hnew] at hseparator
      cases hseparator
    | separated pad' apart' closes' tail' =>
      rw [hold, hnew] at hseparator
      obtain rfl : closes' = closes := Option.some.inj hseparator
      rw [hold, LineEnd.text, typed?_separated pad.blank apart] at h
      obtain rfl := Option.some.inj h
      exact ⟨_, typed?_separated pad'.blank apart' closes' tail', rfl, rfl, hsame⟩

theorem exists_typed? {text : List Char} (htext : text <:+ x.front)
    {r : List Char × Bool × ValueClause × Bool} (h : typed? (text ++ x.old.text) = some r) :
    ∃ r', typed? (text ++ x.new.text) = some r' ∧ TypeLike x r r' := by
  rcases x.unpadded.suffix htext with rfl | hvisible
  · exact exists_typed?_text h
  · have hrel : Option.Rel (TypeLike x) (typed? (text ++ x.old.text))
        (typed? (text ++ x.new.text)) := rel_afterBlanks? (fun _ => rel_typed) htext hvisible
    rw [h] at hrel
    generalize typed? (text ++ x.new.text) = b at hrel
    cases hrel with
    | some h => exact ⟨_, rfl, h⟩

theorem ofLine?_eq (line : List Char) : ofLine? line =
    (name? (trimLeft line)).bind fun r => (typed? r.2).map fun t =>
      ⟨r.1, trim t.1, t.2.1, t.2.2.1, t.2.2.2⟩ := by
  simp only [ofLine?, typed?, Option.bind_eq_bind, Option.map_eq_bind, Option.pure_def]
  rfl

/-- A column as it may be read from a line with more blanks. -/
structure ColumnLike (x : Widening) (c w : ColumnLine) : Prop where
  name : w.name = c.name
  type : w.type = c.type
  notNull : w.notNull = c.notNull
  closes : w.closes = c.closes
  clause : ClauseLike x c.clause w.clause

theorem quote_not_mem_text (e : LineEnd) : '"' ∉ e.text :=
  fun h => by cases LineEnd.isEndChar_of_mem h

/-- With more blanks at its end, a column line is still read, and as a column of the same name and
type. -/
theorem exists_ofLine? {c : ColumnLine} (h : ofLine? x.before = some c) :
    ∃ w, ofLine? x.after = some w ∧ ColumnLike x c w := by
  rw [before, ofLine?_eq] at h
  rw [after, ofLine?_eq]
  rcases x.unpadded with hfront | hvisible
  · rw [hfront, List.nil_append] at h
    have hnone : name? (trimLeft x.old.text) = none :=
      name?_append (fun hmem => quote_not_mem_text x.old ((trimLeft_isSuffix _).mem hmem)) []
    rw [hnone] at h
    cases h
  · rw [trimLeft_append_of_endsVisible hvisible, name?_append (quote_not_mem_text _)] at h ⊢
    cases hname : name? (trimLeft x.front) with
    | none =>
      rw [hname] at h
      cases h
    | some r =>
      rw [hname] at h
      rw [Option.map_some, Option.bind_some] at h ⊢
      obtain ⟨t, ht, rfl⟩ := Option.map_eq_some_iff.1 h
      obtain ⟨t', ht', htype, hnotNull, hclause, hcloses⟩ :=
        exists_typed? ((name?_isSuffix hname).trans (trimLeft_isSuffix x.front)) ht
      exact ⟨_, Option.map_eq_some_iff.2 ⟨t', ht', rfl⟩, rfl, htype.symm, hnotNull.symm,
        hcloses.symm, hclause⟩

end SchemaTransfer.Dump.Widening
