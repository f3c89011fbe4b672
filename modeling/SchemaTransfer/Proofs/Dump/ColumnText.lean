import SchemaTransfer.Proofs.Dump.DefaultText
import SchemaTransfer.Proofs.Dump.TypeText

/-!
# Column lines as a dump writes them

The type ends where the first clause begins, and a value or an expression where the line ends. So a
line is read back as it was written, whatever a value or an expression holds.
-/
namespace SchemaTransfer.Dump
open Unicode Scan ColumnLine

/-- A name that can stand between double quotes on a line without a comment. -/
structure NameText where
  text : String
  nonempty : text ≠ "" := by decide
  doubleQuoteFree : '"' ∉ text.toList := by decide
  quoteFree : '\'' ∉ text.toList := by decide
  dashFree : DashFree text.toList := by decide +kernel
  oneLine : '\n' ∉ text.toList := by decide
  trimmed : trimRight text.toList = text.toList := by decide

theorem NameText.isName (n : NameText) : IsName n.text := ⟨n.doubleQuoteFree, n.trimmed⟩

structure ExpressionText where
  chars : List Char
  trimmed : trim chars = chars
  dashFree : DashFree chars
  oneLine : '\n' ∉ chars

/-- A number with a sign or without one. -/
structure IntegerText where
  sign : Sign := .none
  digits : Digits

inductive IdentityOption
  | start (value : IntegerText)
  | increment (value : IntegerText)
  | minValue (value : IntegerText)
  | maxValue (value : IntegerText)
  | cycle (on : Bool)
  /-- `none` for `NO CACHE`. -/
  | cache (size : Option Digits)

structure IdentityText where
  always : Bool
  options : List IdentityOption
  order : Bool

/-- What a column line says about the values of its column. -/
inductive ValueText
  | nothing
  | implicitDefault
  | default (value : DefaultText)
  | generated (always : Bool) (expression : ExpressionText)
  | identity (identity : IdentityText)

structure ColumnText where
  name : NameText
  type : TypeText
  notNull : Bool
  value : ValueText

/-- A comma, or the parenthesis that closes the columns. -/
def separatorText (closes : Bool) : List Char := if closes then " )".toList else " ,".toList

def generatedText (always : Bool) : List Char :=
  " GENERATED ".toList ++ ((if always then "ALWAYS" else "BY DEFAULT").toList ++ " AS ".toList)

namespace ValueText

/-- What stands behind the type and `NOT NULL`. The line of an identity ends with the parenthesis
that opens its options. -/
def text (closes : Bool) : ValueText → List Char
  | nothing => separatorText closes
  | implicitDefault => " WITH DEFAULT".toList ++ separatorText closes
  | default value => " WITH DEFAULT ".toList ++ (value.text ++ separatorText closes)
  | generated always expression =>
    generatedText always ++ ('(' :: (expression.chars ++ ')' :: separatorText closes))
  | identity i => generatedText i.always ++ "IDENTITY (".toList

def clause : ValueText → ValueClause
  | nothing => .nothing
  | implicitDefault => .implicitDefault
  | default value => .default value.text
  | generated always expression => .generated always expression.chars
  | identity i => .identity i.always

/-- Whether the line closes the columns, given whether the column is the last one. -/
def closes (last : Bool) : ValueText → Bool
  | identity _ => false
  | _ => last

end ValueText

def notNullText (notNull : Bool) : List Char := if notNull then " NOT NULL".toList else []

namespace ColumnText

def attributesText (c : ColumnText) (closes : Bool) : List Char :=
  notNullText c.notNull ++ c.value.text closes

/-- The line with the name of the column. -/
def header (c : ColumnText) (closes : Bool) : List Char :=
  inQuotes c.name.text.toList ++ ' ' :: (c.type.text ++ c.attributesText closes)

end ColumnText

section

variable {pad : List Char}

theorem separatorText_append (closes : Bool) (pad : List Char) :
    ∃ c, separatorText closes ++ pad = ' ' :: c :: pad ∧ (c = ',' ∨ c = ')') ∧
      separator? (c :: pad) = if allBlank pad then some closes else none := by
  cases closes with
  | true => exact ⟨')', rfl, .inr rfl, rfl⟩
  | false => exact ⟨',', rfl, .inl rfl, rfl⟩

theorem isBlank_separator {c : Char} (h : c = ',' ∨ c = ')') : isBlank c = false := by
  rcases h with rfl | rfl <;> decide

theorem lineEnd?_of_allBlank (h : allBlank pad = true) : lineEnd? pad = some false := by
  cases pad with
  | nil => rfl
  | cons c cs =>
    have hc : isBlank c = true := List.all_eq_true.1 h c List.mem_cons_self
    have htrim : trimLeft cs = [] :=
      List.dropWhile_eq_nil_iff.2 fun d hd => List.all_eq_true.1 h d (List.mem_cons_of_mem _ hd)
    rw [lineEnd?, blanks?, if_pos hc, htrim, if_pos h]
    rfl

theorem lineEnd?_separatorText (closes : Bool) (h : allBlank pad = true) :
    lineEnd? (separatorText closes ++ pad) = some closes := by
  obtain ⟨c, htext, hc, hseparator⟩ := separatorText_append closes pad
  rw [htext, lineEnd?, blanks?_space (isBlank_separator hc), Option.bind_some, hseparator, if_pos h]
  rfl

theorem separator?_eq_none {c : Char} {cs : List Char} (h : allBlank cs = false) :
    separator? (c :: cs) = none := by
  unfold separator?
  split
  · next heq =>
    cases heq
    simp [h]
  · next heq =>
    cases heq
    simp [h]
  · rfl

/-- The end of a line does not begin before a text that is visible. -/
theorem lineEnd?_of_visible {text : List Char} (h : endsVisible text = true) (closes : Bool)
    (pad : List Char) : lineEnd? (text ++ (separatorText closes ++ pad)) = none := by
  obtain ⟨s, hend, hs, -⟩ := separatorText_append closes pad
  have hvisible (cs : List Char) : allBlank (cs ++ (separatorText closes ++ pad)) = false := by
    rw [hend]
    exact List.all_eq_false.2 ⟨s, by simp, by simp [isBlank_separator hs]⟩
  obtain ⟨last, hmem, hlast⟩ : ∃ c ∈ text, isBlank c = false := by
    obtain ⟨init, last, rfl, hlast⟩ := exists_concat_of_endsVisible h
    exact ⟨last, List.mem_concat_self, hlast⟩
  cases text with
  | nil => cases hmem
  | cons c cs =>
    have hblanks :
        (blanks? (c :: (cs ++ (separatorText closes ++ pad)))).bind separator? = none := by
      by_cases hc : isBlank c = true
      · have hdrop : trimLeft cs ≠ [] := by
          intro hnil
          rcases List.mem_cons.1 hmem with rfl | hmem
          · rw [hc] at hlast
            cases hlast
          · rw [List.dropWhile_eq_nil_iff.1 hnil last hmem] at hlast
            cases hlast
        cases htrim : trimLeft cs with
        | nil => exact absurd htrim hdrop
        | cons d ds =>
          have hwhole : trimLeft (cs ++ (separatorText closes ++ pad)) =
              d :: (ds ++ (separatorText closes ++ pad)) := by
            unfold trimLeft at htrim ⊢
            rw [List.dropWhile_append, htrim]
            rfl
          rw [blanks?, if_pos hc, hwhole, Option.bind_some, separator?_eq_none (hvisible ds)]
      · rw [blanks?_of_not_blank (by simpa using hc)]
        rfl
    rw [List.cons_append, lineEnd?, hblanks, ← List.cons_append, hvisible]
    rfl

/-- A value ends where its line ends. -/
theorem solid_lineEnd? {text : List Char} (h : endsVisible text = true) (closes : Bool)
    (pad : List Char) : Solid lineEnd? text (separatorText closes ++ pad) := by
  induction text with
  | nil => trivial
  | cons c text ih =>
    refine ⟨lineEnd?_of_visible h closes pad, ?_⟩
    by_cases htext : text = []
    · subst htext
      trivial
    · exact ih (endsVisible_of_suffix h (List.suffix_cons c text) htext)

/-- An expression ends with the parenthesis at the end of its line. -/
theorem solid_closed (text : List Char) (closes : Bool) (pad : List Char) :
    Solid (fun cs => (literal? ")" cs).bind lineEnd?) text
      (')' :: (separatorText closes ++ pad)) := by
  induction text with
  | nil => trivial
  | cons c text ih =>
    refine ⟨?_, ih⟩
    dsimp only
    by_cases hc : c = ')'
    · subst hc
      have hend := lineEnd?_of_visible (endsVisible_append text (b := [')']) (by decide)) closes pad
      show lineEnd? (text ++ ')' :: (separatorText closes ++ pad)) = none
      rwa [List.append_assoc] at hend
    · rw [literal?_cons_of_ne (d := ')') rfl (Ne.symm hc)]
      rfl

theorem generated?_space {c : Char} (hc : isBlank c = false) {cs : List Char}
    (h : (literal? "GENERATED " (c :: cs)).bind (oneOf? ["BY DEFAULT", "ALWAYS"]) = none) :
    generated? (' ' :: c :: cs) = none := by
  rw [generated?, blanks?_space hc]
  cases hliteral : literal? "GENERATED " (c :: cs) with
  | none => simp [hliteral]
  | some rest =>
    rw [hliteral, Option.bind_some] at h
    simp [hliteral, h]

/-- Where no clause begins, the line ends or there is nothing. -/
theorem clause?_space {c : Char} (hc : isBlank c = false) {cs : List Char}
    (hdefault : literal? "WITH DEFAULT" (c :: cs) = none)
    (hgenerated : (literal? "GENERATED " (c :: cs)).bind (oneOf? ["BY DEFAULT", "ALWAYS"]) = none) :
    clause? (' ' :: c :: cs) = (lineEnd? (' ' :: c :: cs)).map (.nothing, ·) := by
  have hnone : withDefault? (' ' :: c :: cs) = none := by
    rw [withDefault?, blanks?_space hc]
    simp [hdefault]
  unfold clause?
  rw [hnone, identity?, expression?, generated?_space hc hgenerated]
  rfl

theorem generated?_generatedText (always : Bool) (rest : List Char) :
    generated? (generatedText always ++ rest) = some (always, rest) := by
  cases always <;> rfl

theorem withDefault?_generatedText (always : Bool) (rest : List Char) :
    withDefault? (generatedText always ++ rest) = none := by
  cases always <;> rfl

theorem defaultText?_text (value : DefaultText) (closes : Bool) (hpad : allBlank pad = true) :
    afterBlanks? defaultText? (' ' :: (value.text ++ (separatorText closes ++ pad))) =
      some (value.text, closes) := by
  have hstarts := value.startsValue_text
  have hshortest := shortest?_append (p := lineEnd?) value.oneLine_text
    (solid_lineEnd? value.endsVisible_text closes pad) (lineEnd?_separatorText closes hpad)
  cases htext : value.text with
  | nil =>
    rw [htext] at hstarts
    cases hstarts
  | cons c cs =>
    rw [htext] at hstarts hshortest
    simp only [DefaultText.startsValue, List.head?_cons, Option.any_some, Bool.and_eq_true,
      Bool.not_eq_true', bne_iff_ne] at hstarts
    obtain ⟨⟨hblank, hcomma⟩, hclose⟩ := hstarts
    have hseparator : separator? (c :: (cs ++ (separatorText closes ++ pad))) = none := by
      unfold separator?
      split
      · next heq =>
        cases heq
        exact absurd rfl hcomma
      · next heq =>
        cases heq
        exact absurd rfl hclose
      · rfl
    rw [List.cons_append, afterBlanks?_space hblank, defaultText?, hseparator]
    exact hshortest

theorem clause?_text (v : ValueText) (closes : Bool) (hpad : allBlank pad = true) :
    clause? (v.text closes ++ pad) = some (v.clause, v.closes closes) := by
  have hend := lineEnd?_separatorText closes hpad
  obtain ⟨s, hseparator, hs, hread⟩ := separatorText_append closes pad
  cases v with
  | nothing =>
    have hnone {w : String} {d : Char} {ws : List Char} (hw : w.toList = d :: ws)
        (hd : d ≠ ',' ∧ d ≠ ')') : literal? w (s :: pad) = none := by
      rcases hs with rfl | rfl
      · exact literal?_cons_of_ne hw hd.1 pad
      · exact literal?_cons_of_ne hw hd.2 pad
    have hdefault : literal? "WITH DEFAULT" (s :: pad) = none := hnone (d := 'W') rfl (by decide)
    have hgenerated : literal? "GENERATED " (s :: pad) = none := hnone (d := 'G') rfl (by decide)
    have hclause := clause?_space (isBlank_separator hs) hdefault (by rw [hgenerated]; rfl)
    rw [← hseparator, hend] at hclause
    exact hclause
  | implicitDefault =>
    have hnone : afterBlanks? defaultText? (separatorText closes ++ pad) = none := by
      rw [hseparator, afterBlanks?_space (isBlank_separator hs), defaultText?, hread, if_pos hpad]
      rfl
    have hclause : withDefault? (" WITH DEFAULT".toList ++ (separatorText closes ++ pad)) =
        some (.implicitDefault, closes) := by
      have hblanks : blanks? (" WITH DEFAULT".toList ++ (separatorText closes ++ pad)) =
          some ("WITH DEFAULT".toList ++ (separatorText closes ++ pad)) := rfl
      rw [withDefault?, hblanks]
      simp only [Option.bind_eq_bind, Option.bind_some, literal?_append, hnone, hend]
      rfl
    have htext : ValueText.text closes .implicitDefault ++ pad =
        " WITH DEFAULT".toList ++ (separatorText closes ++ pad) := List.append_assoc _ _ _
    rw [htext, clause?, hclause]
    rfl
  | default value =>
    have hclause : withDefault? (" WITH DEFAULT ".toList ++
        (value.text ++ (separatorText closes ++ pad))) = some (.default value.text, closes) := by
      have hblanks : blanks? (" WITH DEFAULT ".toList ++ (value.text ++
          (separatorText closes ++ pad))) =
          some ("WITH DEFAULT".toList ++ (' ' :: (value.text ++ (separatorText closes ++ pad)))) :=
        rfl
      rw [withDefault?, hblanks]
      simp only [Option.bind_eq_bind, Option.bind_some, literal?_append,
        defaultText?_text value closes hpad]
      rfl
    have htext : (ValueText.default value).text closes ++ pad =
        " WITH DEFAULT ".toList ++ (value.text ++ (separatorText closes ++ pad)) :=
      (List.append_assoc _ _ _).trans (congrArg _ (List.append_assoc _ _ _))
    rw [htext, clause?, hclause]
    rfl
  | generated always expression =>
    have htext : (ValueText.generated always expression).text closes ++ pad =
        generatedText always ++ ('(' :: (expression.chars ++
          ')' :: (separatorText closes ++ pad))) :=
      (List.append_assoc _ _ _).trans
        (congrArg (generatedText always ++ '(' :: ·) (List.append_assoc _ _ _))
    have hidentity : identity? (generatedText always ++ ('(' :: (expression.chars ++
        ')' :: (separatorText closes ++ pad)))) = none := by
      rw [identity?, generated?_generatedText]
      rfl
    have hexpression : expression? (generatedText always ++ ('(' :: (expression.chars ++
        ')' :: (separatorText closes ++ pad)))) =
          some (.generated always expression.chars, closes) := by
      have hshortest := shortest?_append expression.oneLine
        (solid_closed expression.chars closes pad)
        (show ((literal? ")" (')' :: (separatorText closes ++ pad))).bind lineEnd?) = some closes
          from hend)
      rw [expression?, generated?_generatedText]
      show (shortest? _ (expression.chars ++ ')' :: (separatorText closes ++ pad))).bind _ = _
      rw [hshortest]
      rfl
    rw [htext, clause?, withDefault?_generatedText, hidentity, hexpression]
    rfl
  | identity i =>
    have hidentity : identity? (generatedText i.always ++ ("IDENTITY (".toList ++ pad)) =
        some (.identity i.always, false) := by
      rw [identity?, generated?_generatedText]
      show (lineEnd? pad).bind _ = _
      rw [lineEnd?_of_allBlank hpad]
      rfl
    have htext : (ValueText.identity i).text closes ++ pad =
        generatedText i.always ++ ("IDENTITY (".toList ++ pad) := List.append_assoc _ _ _
    rw [htext, clause?, withDefault?_generatedText, hidentity]
    rfl

theorem attributes?_text (c : ColumnText) (closes : Bool) (hpad : allBlank pad = true) :
    attributes? (c.attributesText closes ++ pad) =
      some (c.notNull, c.value.clause, c.value.closes closes) := by
  have hclause := clause?_text c.value closes hpad
  unfold ColumnText.attributesText
  cases c.notNull with
  | true =>
    have hblanks : blanks? (notNullText true ++ c.value.text closes ++ pad) =
        some ("NOT NULL".toList ++ (c.value.text closes ++ pad)) :=
      congrArg blanks? (List.append_assoc _ _ _)
    rw [attributes?, hblanks]
    simp only [Option.bind_eq_bind, Option.bind_some, literal?_append, hclause]
    rfl
  | false =>
    have hnone : (do
        let cs ← blanks? (c.value.text closes ++ pad)
        let cs ← literal? "NOT NULL" cs
        return (true, ← clause? cs) : Option (Bool × ValueClause × Bool)) = none := by
      cases c.value with
      | nothing => cases closes <;> rfl
      | implicitDefault => rfl
      | default value => rfl
      | generated always expression => rfl
      | identity i => rfl
    show attributes? (c.value.text closes ++ pad) = _
    rw [attributes?, hnone, hclause]
    rfl

end

theorem attributes?_of_not_blank {c : Char} (hc : isBlank c = false) (cs : List Char) :
    attributes? (c :: cs) = none := by
  have hblanks := blanks?_of_not_blank hc cs
  have hend : lineEnd? (c :: cs) = none := by
    have hall : allBlank (c :: cs) = false := by simp [allBlank, hc]
    rw [lineEnd?, hblanks, hall]
    rfl
  rw [attributes?, clause?, withDefault?, identity?, expression?, generated?, hblanks, hend]
  rfl

/-- No clause begins with a word that is none of a clause. -/
theorem attributes?_space {c : Char} (hc : isBlank c = false) (hcomma : c ≠ ',') (hclose : c ≠ ')')
    {cs : List Char} (hnull : literal? "NOT NULL" (c :: cs) = none)
    (hdefault : literal? "WITH DEFAULT" (c :: cs) = none)
    (hgenerated : (literal? "GENERATED " (c :: cs)).bind (oneOf? ["BY DEFAULT", "ALWAYS"]) = none) :
    attributes? (' ' :: c :: cs) = none := by
  have hseparator : separator? (c :: cs) = none := by
    unfold separator?
    split
    · next heq =>
      cases heq
      exact absurd rfl hcomma
    · next heq =>
      cases heq
      exact absurd rfl hclose
    · rfl
  have hend : lineEnd? (' ' :: c :: cs) = none := by
    have hall : allBlank (' ' :: c :: cs) = false := by simp [allBlank, hc]
    rw [lineEnd?, blanks?_space hc, Option.bind_some, hseparator, hall]
    rfl
  rw [attributes?, clause?_space hc hdefault hgenerated, hend, blanks?_space hc]
  simp [hnull]

/-- No clause begins with this front of a text, whatever follows it. -/
def inertFront : List Char → Bool
  | ' ' :: c :: cs => !isBlank c && c != ',' && c != ')' && differ "NOT NULL".toList (c :: cs) &&
      differ "WITH DEFAULT".toList (c :: cs) && differ "GENERATED ".toList (c :: cs)
  | c :: _ => !isBlank c
  | [] => false

def inert : List Char → Bool
  | [] => true
  | c :: cs => inertFront (c :: cs) && inert cs

theorem attributes?_of_inertFront {front : List Char} (h : inertFront front = true)
    (rest : List Char) : attributes? (front ++ rest) = none := by
  unfold inertFront at h
  split at h
  · next c cs =>
    simp only [Bool.and_eq_true, Bool.not_eq_true', bne_iff_ne] at h
    obtain ⟨⟨⟨⟨⟨hc, hcomma⟩, hclose⟩, hnull⟩, hdefault⟩, hgenerated⟩ := h
    have hnone : literal? "GENERATED " (c :: (cs ++ rest)) = none :=
      literal?_of_differ hgenerated rest
    show attributes? (' ' :: c :: (cs ++ rest)) = none
    exact attributes?_space hc hcomma hclose (literal?_of_differ hnull rest)
      (literal?_of_differ hdefault rest) (by rw [hnone]; rfl)
  · exact attributes?_of_not_blank (by simpa using h) _
  · cases h

theorem solid_of_inert {text : List Char} (h : inert text = true) (rest : List Char) :
    Solid attributes? text rest := by
  induction text with
  | nil => trivial
  | cons c text ih =>
    rw [inert, Bool.and_eq_true] at h
    exact ⟨attributes?_of_inertFront h.1 rest, ih h.2⟩

theorem solid_of_not_blank {text : List Char} (h : ∀ c ∈ text, isBlank c = false)
    (rest : List Char) : Solid attributes? text rest :=
  solid_of_forall (fun _ cs hc => attributes?_of_not_blank hc cs) h rest

/-- What follows a word that a user chose: a space, and then nothing that the word and a clause
would have to go on with. -/
def GoesOn (rest : List Char) : Prop :=
  ∃ r, rest = ' ' :: r ∧ ∀ w ∈ ["NULL", "DEFAULT", "BY DEFAULT", "ALWAYS"], literal? w r = none

theorem goesOn_of_differ {front : List Char}
    (h : ∀ w ∈ ["NULL", "DEFAULT", "BY DEFAULT", "ALWAYS"], differ w.toList front = true)
    (rest : List Char) : GoesOn (' ' :: (front ++ rest)) :=
  ⟨front ++ rest, rfl, fun w hw => literal?_of_differ (h w hw) rest⟩

theorem goesOn_attributesText (c : ColumnText) (closes : Bool) (pad : List Char) :
    GoesOn (c.attributesText closes ++ pad) := by
  have hfront {text : List Char} (front behind : List Char)
      (htext : text = ' ' :: (front ++ behind))
      (h : ∀ w ∈ ["NULL", "DEFAULT", "BY DEFAULT", "ALWAYS"], differ w.toList front = true) :
      GoesOn (text ++ pad) := by
    rw [htext, List.cons_append, List.append_assoc]
    exact goesOn_of_differ h _
  unfold ColumnText.attributesText
  cases c.notNull with
  | true => exact hfront "NOT NULL".toList (c.value.text closes) rfl (by decide)
  | false =>
    cases c.value with
    | nothing =>
      cases closes with
      | true => exact hfront [')'] [] rfl (by decide)
      | false => exact hfront [','] [] rfl (by decide)
    | implicitDefault => exact hfront "WITH".toList _ rfl (by decide)
    | default value => exact hfront "WITH".toList _ rfl (by decide)
    | generated always expression => exact hfront "GENERATED".toList _ rfl (by decide)
    | identity i => exact hfront "GENERATED".toList _ rfl (by decide)

theorem goesOn_optionsText (options : List TypeOption) {rest : List Char} (h : GoesOn rest) :
    GoesOn (TypeText.optionsText options ++ rest) := by
  cases options with
  | nil => exact h
  | cons o options =>
    have htext : TypeText.optionsText (o :: options) ++ rest =
        ' ' :: (o.text ++ (TypeText.optionsText options ++ rest)) :=
      congrArg (' ' :: ·) (List.append_assoc _ _ _)
    rw [htext]
    cases o with
    | fixed words known =>
      have hall : ∀ w ∈ fixedOptions, ∀ v ∈ ["NULL", "DEFAULT", "BY DEFAULT", "ALWAYS"],
          differ v.toList w.toList = true := by decide
      exact goesOn_of_differ (hall words known) _
    | inlineLength digits =>
      have hfront : (TypeOption.inlineLength digits).text =
          "INLINE LENGTH ".toList ++ digits.chars := rfl
      rw [hfront, List.append_assoc]
      exact goesOn_of_differ (by decide) _
    | ccsid word =>
      have hfront : (TypeOption.ccsid word).text = "CCSID ".toList ++ word.chars := rfl
      rw [hfront, List.append_assoc]
      exact goesOn_of_differ (by decide) _

theorem attributes?_digits (ds : Digits) (rest : List Char) :
    attributes? (' ' :: (ds.chars ++ rest)) = none := by
  obtain ⟨c, chars, hds, hc⟩ := ds.eq_cons
  have hnone {w : String} {d : Char} {ws : List Char} (hw : w.toList = d :: ws)
      (hd : isDigit d = false) : literal? w (c :: (chars ++ rest)) = none :=
    literal?_cons_of_ne hw (ne_of_test hc hd).symm _
  have hgenerated : literal? "GENERATED " (c :: (chars ++ rest)) = none :=
    hnone (d := 'G') rfl (by decide)
  rw [hds]
  show attributes? (' ' :: c :: (chars ++ rest)) = none
  exact attributes?_space (isBlank_of_isDigit hc) (ne_of_test hc (by decide))
    (ne_of_test hc (by decide)) (hnone (d := 'N') rfl (by decide))
    (hnone (d := 'W') rfl (by decide)) (by rw [hgenerated]; rfl)

theorem attributes?_word (w : Word) {rest : List Char} (h : GoesOn rest) :
    attributes? (' ' :: (w.chars ++ rest)) = none := by
  obtain ⟨r, rfl, hr⟩ := h
  have hspace : ' ' ∉ w.chars := w.ne (by decide)
  have hnull : literal? "NOT NULL" (w.chars ++ ' ' :: r) = none := by
    show ("NOT".toList ++ ' ' :: "NULL".toList).isPrefixOf? _ = none
    rw [isPrefixOf?_words (by decide) hspace]
    split
    · exact hr "NULL" (by simp)
    · rfl
  have hdefault : literal? "WITH DEFAULT" (w.chars ++ ' ' :: r) = none := by
    show ("WITH".toList ++ ' ' :: "DEFAULT".toList).isPrefixOf? _ = none
    rw [isPrefixOf?_words (by decide) hspace]
    split
    · exact hr "DEFAULT" (by simp)
    · rfl
  have hgenerated : (literal? "GENERATED " (w.chars ++ ' ' :: r)).bind
      (oneOf? ["BY DEFAULT", "ALWAYS"]) = none := by
    show (("GENERATED".toList ++ ' ' :: []).isPrefixOf? _).bind _ = none
    rw [isPrefixOf?_words (by decide) hspace]
    split
    · show oneOf? ["BY DEFAULT", "ALWAYS"] r = none
      simp [oneOf?, hr]
    · rfl
  obtain ⟨c, chars, hw, hc⟩ := w.eq_cons
  rw [hw] at hnull hdefault hgenerated ⊢
  exact attributes?_space (isBlank_of_isWord hc) (ne_of_test hc (by decide))
    (ne_of_test hc (by decide)) hnull hdefault hgenerated

theorem solid_optionText (o : TypeOption) {rest : List Char} (h : GoesOn rest) :
    Solid attributes? (' ' :: o.text) rest := by
  cases o with
  | fixed words known =>
    have hall : ∀ w ∈ fixedOptions, inert (' ' :: w.toList) = true := by decide
    exact solid_of_inert (hall words known) rest
  | inlineLength digits =>
    have htext : ' ' :: (TypeOption.inlineLength digits).text =
        " INLINE LENGTH".toList ++ ' ' :: digits.chars := rfl
    rw [htext]
    refine (solid_of_inert (by decide) _).append ⟨attributes?_digits digits rest, ?_⟩
    exact solid_of_not_blank (fun c hc => isBlank_of_isDigit (digits.digits c hc)) rest
  | ccsid word =>
    have htext : ' ' :: (TypeOption.ccsid word).text = " CCSID".toList ++ ' ' :: word.chars := rfl
    rw [htext]
    refine (solid_of_inert (by decide) _).append ⟨attributes?_word word h, ?_⟩
    exact solid_of_not_blank (fun c hc => isBlank_of_isWord (word.words c hc)) rest

theorem solid_optionsText (options : List TypeOption) {rest : List Char} (h : GoesOn rest) :
    Solid attributes? (TypeText.optionsText options) rest := by
  induction options with
  | nil => trivial
  | cons o options ih =>
    rw [TypeText.optionsText, List.flatMap_cons]
    exact (solid_optionText o (goesOn_optionsText options h)).append ih

/-- No clause begins inside a type. -/
theorem solid_typeText (t : TypeText) {rest : List Char} (h : GoesOn rest) :
    Solid attributes? t.text.tail rest := by
  have hkeyword : ∀ w ∈ typeKeywords, w.toList ≠ [] ∧ inert w.toList.tail = true := by
    decide
  obtain ⟨hne, hinert⟩ := hkeyword t.keyword t.known
  have htail : t.text.tail = t.keyword.toList.tail ++
      (TypeText.argumentText t.argument ++ TypeText.optionsText t.options) := by
    rw [TypeText.text, List.tail_append_of_ne_nil hne]
  rw [htail]
  refine (solid_of_inert hinert _).append (Solid.append ?_ (solid_optionsText _ h))
  cases t.argument with
  | none => trivial
  | some a =>
    refine solid_of_not_blank ?_ _
    have hdigits (ds : Digits) : ∀ c ∈ ds.chars, isBlank c = false :=
      fun c hc => isBlank_of_isDigit (ds.digits c hc)
    show ∀ c ∈ '(' :: (a.inner ++ [')']), isBlank c = false
    rw [List.forall_mem_cons, List.forall_mem_append]
    refine ⟨by decide, ?_, List.forall_mem_singleton.2 (by decide)⟩
    cases a with
    | size ds unit =>
      refine List.forall_mem_append.2 ⟨hdigits ds, ?_⟩
      cases unit with
      | none => exact fun c hc => by cases hc
      | some unit => exact List.forall_mem_singleton.2 (by cases unit <;> decide)
    | pair precision scale =>
      exact List.forall_mem_append.2
        ⟨hdigits precision, List.forall_mem_cons.2 ⟨by decide, hdigits scale⟩⟩

theorem shortestNonempty?_typeText (c : ColumnText) (closes : Bool) {pad : List Char}
    (hpad : allBlank pad = true) :
    shortestNonempty? attributes? (c.type.text ++ (c.attributesText closes ++ pad)) =
      some (c.type.text, c.notNull, c.value.clause, c.value.closes closes) := by
  have hline : '\n' ∉ c.type.text := c.type.not_mem_text (by decide) (by decide) (by decide)
  have hsolid := solid_typeText c.type (goesOn_attributesText c closes pad)
  obtain ⟨first, rest, htext, -⟩ := c.type.text_eq_cons
  rw [htext] at hline hsolid ⊢
  obtain ⟨hfirst, hrest⟩ := List.ne_and_not_mem_of_not_mem_cons hline
  have hfeed : (first == '\n') = false := by simp [Ne.symm hfirst]
  rw [List.cons_append, shortestNonempty?, hfeed,
    shortest?_append hrest hsolid (attributes?_text c closes hpad)]
  rfl

/-- A column line is read back as it was written. -/
theorem ofLine?_header (c : ColumnText) (closes : Bool) {indent pad : List Char}
    (hindent : allBlank indent = true) (hpad : allBlank pad = true) :
    ColumnLine.ofLine? (indent ++ (c.header closes ++ pad)) =
      some ⟨c.name.text, c.type.text, c.notNull, c.value.clause, c.value.closes closes⟩ := by
  obtain ⟨first, rest, htext, hfirst⟩ := c.type.text_eq_cons
  have hread := shortestNonempty?_typeText c closes hpad
  rw [htext] at hread
  have hheader : c.header closes ++ pad = inQuotes c.name.text.toList ++
      ' ' :: (c.type.text ++ (c.attributesText closes ++ pad)) := by
    unfold ColumnText.header
    rw [List.append_assoc, List.cons_append, List.append_assoc]
  have hname : name? (trimLeft (indent ++ (c.header closes ++ pad))) =
      some (c.name.text, ' ' :: (c.type.text ++ (c.attributesText closes ++ pad))) := by
    rw [trimLeft_append hindent, hheader, inQuotes, List.cons_append, trimLeft_cons (by decide),
      ← List.cons_append, ← inQuotes, name?_inQuotes c.name.doubleQuoteFree, c.name.trimmed,
      String.ofList_toList]
  rw [ColumnLine.ofLine?, hname]
  simp only [Option.bind_eq_bind, Option.bind_some]
  rw [htext, List.cons_append, afterBlanks?_space hfirst, ← List.cons_append, hread,
    Option.bind_some, ← htext, c.type.trim_text]
  rfl

end SchemaTransfer.Dump
