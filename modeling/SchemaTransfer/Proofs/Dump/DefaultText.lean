import SchemaTransfer.Proofs.Dump.Dashes

/-!
# Default values as a dump writes them

A literal whose quotes are doubled, a number, a special register or one of a few words. All of them
are known as default values.
-/
namespace SchemaTransfer.Dump
open Unicode Scan ColumnLine

/-- The content of a literal with its quotes doubled. -/
def doubled : List Char → List Char
  | [] => []
  | c :: cs => if c == '\'' then '\'' :: '\'' :: doubled cs else c :: doubled cs

inductive Sign
  | none
  | plus
  | minus

def Sign.text : Sign → List Char
  | none => []
  | plus => ['+']
  | minus => ['-']

/-- A number with a fraction and an exponent or without them. There may be no digit behind the
point. -/
structure DecimalText where
  sign : Sign := .none
  whole : Digits
  fraction : Option (Option Digits) := none
  exponent : Option (Sign × Digits) := none

namespace DecimalText

def fractionText : Option (Option Digits) → List Char
  | none => []
  | some digits => '.' :: (digits.map (·.chars)).getD []

def exponentText : Option (Sign × Digits) → List Char
  | none => []
  | some (sign, digits) => 'E' :: (sign.text ++ digits.chars)

def text (n : DecimalText) : List Char :=
  n.sign.text ++ (n.whole.chars ++ (fractionText n.fraction ++ exponentText n.exponent))

end DecimalText

/-- The words that are values of their own. -/
def valueWords : List String := ["NULL", "USER", "SESSION_USER", "SYSTEM_USER"]

inductive DefaultText
  | string (content : List Char) (oneLine : '\n' ∉ content)
  | number (value : DecimalText)
  | word (word : String) (known : word ∈ valueWords)
  /-- With a space or an underscore behind `CURRENT`. -/
  | register (start : String) (starts : start ∈ ["CURRENT ", "CURRENT_"]) (name : String)
      (known : name ∈ registers) (precision : Option Digits)

namespace DefaultText

def precisionText : Option Digits → List Char
  | none => []
  | some digits => '(' :: (digits.chars ++ [')'])

def text : DefaultText → List Char
  | string content _ => '\'' :: (doubled content ++ ['\''])
  | number value => value.text
  | word w _ => w.toList
  | register start _ name _ precision => start.toList ++ (name.toList ++ precisionText precision)

end DefaultText

theorem isString_doubled (content : List Char) :
    isString ('\'' :: (doubled content ++ ['\''])) = true := by
  show isString.go (doubled content ++ ['\'']) = true
  induction content with
  | nil => rfl
  | cons c content ih =>
    by_cases hc : c = '\''
    · subst hc
      exact ih
    · have hdoubled : doubled (c :: content) = c :: doubled content := by simp [doubled, hc]
      rw [hdoubled, List.cons_append]
      generalize doubled content ++ ['\''] = rest at ih
      rw [isString.go.eq_def]
      split
      · next heq => cases heq
      · next heq =>
        cases heq
        exact absurd rfl hc
      · next heq =>
        cases heq
        exact absurd rfl hc
      · next heq =>
        cases heq
        exact ih

theorem sign_text (s : Sign) (ds : Digits) (rest : List Char) :
    sign (s.text ++ (ds.chars ++ rest)) = ds.chars ++ rest := by
  cases s with
  | none =>
    obtain ⟨c, chars, hds, hc⟩ := ds.eq_cons
    have hminus : '-' ≠ c := (ne_of_test hc (by decide)).symm
    have hplus : '+' ≠ c := (ne_of_test hc (by decide)).symm
    have hnone : oneOf? ["-", "+"] (c :: (chars ++ rest)) = none := by
      rw [oneOf?, List.findSome?_cons, literal?_cons_of_ne (d := '-') rfl hminus,
        List.findSome?_cons, literal?_cons_of_ne (d := '+') rfl hplus]
      rfl
    rw [hds]
    show sign (c :: (chars ++ rest)) = c :: (chars ++ rest)
    simp only [sign, Scan.optional, hnone, Option.map_none, Option.getD_none]
  | plus => rfl
  | minus => rfl

theorem isNumber_text (n : DecimalText) : isNumber n.text = true := by
  have hbehind (e : Option (Sign × Digits)) :
      ∀ c ∈ (DecimalText.exponentText e).head?, isDigit c = false := by
    cases e with
    | none => simp [DecimalText.exponentText]
    | some e =>
      simp only [DecimalText.exponentText, List.head?_cons, Option.mem_def, Option.some.injEq]
      rintro c rfl
      decide
  have hfraction (f : Option (Option Digits)) (e : Option (Sign × Digits)) :
      Scan.optional (fun cs => (literal? "." cs).map (·.dropWhile isDigit))
        (DecimalText.fractionText f ++ DecimalText.exponentText e) =
          DecimalText.exponentText e := by
    rcases f with _ | _ | ds
    · cases e <;> rfl
    · show (DecimalText.exponentText e).dropWhile isDigit = _
      exact dropWhile_exact (a := []) (by simp) (hbehind e)
    · show (ds.chars ++ DecimalText.exponentText e).dropWhile isDigit = _
      exact dropWhile_exact ds.digits (hbehind e)
  have hwhole : ∀ c ∈ (DecimalText.fractionText n.fraction ++
      DecimalText.exponentText n.exponent).head?, isDigit c = false := by
    cases n.fraction with
    | none => exact hbehind n.exponent
    | some f =>
      simp only [DecimalText.fractionText, List.cons_append, List.head?_cons, Option.mem_def,
        Option.some.injEq]
      rintro c rfl
      decide
  unfold isNumber DecimalText.text
  rw [sign_text, digits?_append n.whole hwhole]
  dsimp only
  rw [hfraction]
  cases n.exponent with
  | none => rfl
  | some e =>
    obtain ⟨s, ds⟩ := e
    have hsign := sign_text s ds []
    have hdigits : digits? (ds.chars ++ []) = some (ds.chars, []) := digits?_append ds (by simp)
    rw [List.append_nil] at hsign hdigits
    show List.isEmpty (Option.getD ((digits? (sign (s.text ++ ds.chars))).bind _) _) = true
    rw [hsign, hdigits]
    rfl

theorem isRegister_text {start : String} (starts : start ∈ ["CURRENT ", "CURRENT_"])
    {name : String} (known : name ∈ registers) (precision : Option Digits) :
    isRegister (start.toList ++ (name.toList ++ DefaultText.precisionText precision)) = true := by
  have hstart : ∀ w ∈ ["CURRENT ", "CURRENT_"], ∀ v ∈ ["CURRENT ", "CURRENT_"].takeWhile (· != w),
      differ v.toList (w.toList ++ []) = true := by decide +kernel
  have hname : ∀ w ∈ registers, ∀ v ∈ registers.takeWhile (· != w),
      differ v.toList (w.toList ++ ['(']) = true := by decide +kernel
  cases precision with
  | none =>
    have hall : ∀ w ∈ ["CURRENT ", "CURRENT_"], ∀ n ∈ registers,
        isRegister (w.toList ++ (n.toList ++ [])) = true := by decide +kernel
    exact hall start starts name known
  | some ds =>
    have htext : name.toList ++ DefaultText.precisionText (some ds) =
        name.toList ++ (['('] ++ (ds.chars ++ [')'])) := rfl
    unfold isRegister
    rw [htext, ← List.nil_append (name.toList ++ _), oneOf?_append starts [] (hstart start starts)]
    dsimp only
    rw [List.nil_append, oneOf?_append known ['('] (hname name known)]
    have hprecision : (digits? (trimLeft (ds.chars ++ [')']))).bind
        (fun r => literal? ")" (trimLeft r.2)) = some [] := by
      rw [ds.trimLeft_append, digits?_append ds (by simp; decide)]
      rfl
    show (Option.getD ((digits? (trimLeft (ds.chars ++ [')']))).bind
      fun r => literal? ")" (trimLeft r.2)) _).isEmpty = true
    rw [hprecision]
    rfl

theorem DefaultText.isDefault_text (d : DefaultText) : isDefault d.text = true := by
  unfold isDefault
  cases d with
  | string content oneLine => simp [text, isString_doubled]
  | number value => simp [text, isNumber_text]
  | word word known =>
    have hword : ["NULL", "USER", "SESSION_USER", "SYSTEM_USER"].contains
        (String.ofList word.toList) = true := by
      rw [String.ofList_toList]
      exact List.contains_iff_mem.2 known
    simp only [text, hword, Bool.or_true, Bool.true_or]
  | register start starts name known precision =>
    simp only [text, isRegister_text starts known, Bool.or_true, Bool.true_or]

theorem DashFree.sign_append (s : Sign) {cs : List Char} (h : '-' ∉ cs) :
    DashFree (s.text ++ cs) := by
  have hsign : DashFree s.text := by cases s <;> decide
  exact hsign.append h

namespace DecimalText

theorem dashFree_text (n : DecimalText) : DashFree n.text := by
  have hdigits (ds : Digits) : '-' ∉ ds.chars := ds.ne (by decide)
  have hfraction (f : Option (Option Digits)) : '-' ∉ fractionText f := by
    rcases f with _ | _ | ds <;> simp [fractionText, hdigits]
  have hfront : DashFree (n.sign.text ++ (n.whole.chars ++ fractionText n.fraction)) :=
    DashFree.sign_append _ (by simp [hdigits, hfraction])
  unfold text
  cases n.exponent with
  | none => simpa [exponentText] using hfront
  | some e =>
    have hexponent := hfront.append_cons (show 'E' ≠ '-' by decide)
      (DashFree.sign_append e.1 (hdigits e.2))
    simpa [exponentText, List.append_assoc] using hexponent

/-- A number ends in a digit or a point. -/
theorem endsVisible_text (n : DecimalText) : endsVisible n.text = true := by
  unfold text
  refine endsVisible_append _ ?_
  rw [← List.append_assoc]
  cases n.exponent with
  | none =>
    rw [exponentText, List.append_nil]
    rcases n.fraction with _ | _ | ds
    · rw [fractionText, List.append_nil]
      exact n.whole.endsVisible
    · exact endsVisible_append _ (by decide)
    · exact endsVisible_append _ (endsVisible_append ['.'] ds.endsVisible)
  | some e =>
    exact endsVisible_append _ (endsVisible_append ['E'] (endsVisible_append _ e.2.endsVisible))

theorem not_mem_text {c : Char} (n : DecimalText) (hdigit : isDigit c = false)
    (hother : c ∉ ['+', '-', '.', 'E']) : c ∉ n.text := by
  have hdigits (ds : Digits) : c ∉ ds.chars := ds.ne hdigit
  have hsign (s : Sign) : c ∉ s.text := by cases s <;> simp_all [Sign.text]
  unfold text
  rcases n.fraction with _ | _ | ds <;> rcases n.exponent with _ | e <;>
    simp_all [fractionText, exponentText]

end DecimalText

namespace DefaultText

/-- The first character is no blank and no separator. -/
def startsValue (cs : List Char) : Bool :=
  cs.head?.any fun c => !isBlank c && c != ',' && c != ')'

theorem startsValue_append {a : List Char} (h : startsValue a = true) (b : List Char) :
    startsValue (a ++ b) = true := any_head?_append h b

theorem startsValue_digits (ds : Digits) : startsValue ds.chars = true := by
  obtain ⟨c, chars, hds, hc⟩ := ds.eq_cons
  have hcomma : c ≠ ',' := ne_of_test hc (by decide)
  have hclose : c ≠ ')' := ne_of_test hc (by decide)
  rw [startsValue, hds]
  simp [isBlank_of_isDigit hc, hcomma, hclose]

theorem startsValue_text (d : DefaultText) : startsValue d.text = true := by
  cases d with
  | string content oneLine => exact startsValue_append (a := ['\'']) (by decide) _
  | number n =>
    cases hsign : n.sign with
    | none =>
      have htext : (number n).text = n.whole.chars ++ (DecimalText.fractionText n.fraction ++
          DecimalText.exponentText n.exponent) := by
        rw [text, DecimalText.text, hsign]
        rfl
      rw [htext]
      exact startsValue_append (startsValue_digits _) _
    | plus =>
      rw [text, DecimalText.text, hsign]
      exact startsValue_append (by decide) _
    | minus =>
      rw [text, DecimalText.text, hsign]
      exact startsValue_append (by decide) _
  | word w known =>
    have hall : ∀ w ∈ valueWords, startsValue w.toList = true := by decide +kernel
    exact hall w known
  | register start starts name known precision =>
    have hall : ∀ w ∈ ["CURRENT ", "CURRENT_"], startsValue w.toList = true := by decide +kernel
    exact startsValue_append (hall start starts) _

theorem endsVisible_text (d : DefaultText) : endsVisible d.text = true := by
  cases d with
  | string content oneLine => exact endsVisible_append ('\'' :: doubled content) (by decide)
  | number n => exact n.endsVisible_text
  | word w known =>
    have hall : ∀ w ∈ valueWords, endsVisible w.toList = true := by decide +kernel
    exact hall w known
  | register start starts name known precision =>
    have hall : ∀ w ∈ registers, endsVisible w.toList = true := by decide +kernel
    refine endsVisible_append _ ?_
    cases precision with
    | none => simpa [precisionText] using hall name known
    | some ds => exact endsVisible_append _ (endsVisible_append ('(' :: ds.chars) (by decide))

theorem trim_text (d : DefaultText) : trim d.text = d.text := by
  have hvisible : startsVisible d.text = true := by
    have hstarts := d.startsValue_text
    cases htext : d.text with
    | nil =>
      rw [htext] at hstarts
      cases hstarts
    | cons c cs =>
      rw [htext] at hstarts
      simp only [startsValue, List.head?_cons, Option.any_some, Bool.and_eq_true] at hstarts
      exact hstarts.1.1
  have hleft := trimLeft_of_startsVisible hvisible []
  rw [List.append_nil] at hleft
  rw [trim, hleft, trimRight_of_endsVisible d.endsVisible_text]

theorem not_mem_doubled {c : Char} {content : List Char} (h : c ∉ content) :
    c ∉ doubled content := by
  induction content with
  | nil => exact List.not_mem_nil
  | cons d content ih =>
    obtain ⟨hd, hcontent⟩ := List.ne_and_not_mem_of_not_mem_cons h
    by_cases hquote : d = '\''
    · subst hquote
      simp [doubled, hd, ih hcontent]
    · simp [doubled, hquote, hd, ih hcontent]

/-- A value stands on one line. -/
theorem oneLine_text (d : DefaultText) : '\n' ∉ d.text := by
  cases d with
  | string content oneLine => simp [text, not_mem_doubled oneLine]
  | number n => exact n.not_mem_text (by decide) (by decide)
  | word w known =>
    have hall : ∀ w ∈ valueWords, '\n' ∉ w.toList := by decide +kernel
    exact hall w known
  | register start starts name known precision =>
    have hstarts : ∀ w ∈ ["CURRENT ", "CURRENT_"], '\n' ∉ w.toList := by decide +kernel
    have hall : ∀ w ∈ registers, '\n' ∉ w.toList := by decide +kernel
    have hprecision : '\n' ∉ precisionText precision := by
      cases precision with
      | none => exact List.not_mem_nil
      | some ds => simp [precisionText, ds.ne (show isDigit '\n' = false by decide)]
    unfold text
    rw [List.mem_append, List.mem_append, not_or, not_or]
    exact ⟨hstarts start starts, hall name known, hprecision⟩

/-- Inside the literal nothing starts a comment. -/
theorem beforeComment_doubled (content rest : List Char) :
    beforeComment true (doubled content ++ '\'' :: rest) =
      doubled content ++ '\'' :: beforeComment false rest := by
  induction content with
  | nil => exact beforeComment_cons (fun h => by cases h) true
  | cons c content ih =>
    by_cases hc : c = '\''
    · subst hc
      show beforeComment true ('\'' :: '\'' :: (doubled content ++ '\'' :: rest)) = _
      rw [beforeComment_cons (fun h => by cases h) true,
        beforeComment_cons (fun h => by cases h) _]
      exact congrArg ('\'' :: '\'' :: ·) ih
    · have hdoubled : doubled (c :: content) = c :: doubled content := by simp [doubled, hc]
      rw [hdoubled, List.cons_append, beforeComment_quoted hc, ih, List.cons_append]

/-- A value between texts that are no part of a comment is none either. -/
theorem beforeComment_text (d : DefaultText) {front behind : List Char} (hfront : DashFree front)
    (hquote : '\'' ∉ front) (hspace : front.getLast? = some ' ') (hbehind : '-' ∉ behind) :
    beforeComment false (front ++ (d.text ++ behind)) = front ++ (d.text ++ behind) := by
  have hplain (hd : DashFree d.text) :
      beforeComment false (front ++ (d.text ++ behind)) = front ++ (d.text ++ behind) := by
    obtain ⟨init, hinit⟩ := List.getLast?_eq_some_iff.1 hspace
    refine beforeComment_of_dashFree ?_ false
    rw [hinit, List.append_assoc, List.singleton_append]
    have hstart : DashFree init := fun h =>
      hfront (hinit ▸ h.trans (List.prefix_append _ _).isInfix)
    exact hstart.append_cons (by decide) (hd.append hbehind)
  cases d with
  | string content oneLine =>
    have htext : front ++ ((string content oneLine).text ++ behind) =
        front ++ '\'' :: (doubled content ++ '\'' :: behind) := by simp [text]
    rw [htext, beforeComment_append_quote hfront hquote, Bool.not_false, beforeComment_doubled,
      beforeComment_of_dashFree (dashFree_of_not_mem hbehind)]
  | number n => exact hplain n.dashFree_text
  | word w known =>
    have hall : ∀ w ∈ valueWords, '-' ∉ w.toList := by decide +kernel
    exact hplain (dashFree_of_not_mem (hall w known))
  | register start starts name known precision =>
    have hstarts : ∀ w ∈ ["CURRENT ", "CURRENT_"], '-' ∉ w.toList := by decide +kernel
    have hall : ∀ w ∈ registers, '-' ∉ w.toList := by decide +kernel
    have hprecision : '-' ∉ precisionText precision := by
      cases precision with
      | none => exact List.not_mem_nil
      | some ds => simp [precisionText, ds.ne (show isDigit '-' = false by decide)]
    refine hplain (dashFree_of_not_mem ?_)
    unfold text
    rw [List.mem_append, List.mem_append, not_or, not_or]
    exact ⟨hstarts start starts, hall name known, hprecision⟩

end DefaultText

end SchemaTransfer.Dump
