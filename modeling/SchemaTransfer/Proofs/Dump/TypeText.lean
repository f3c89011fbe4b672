import SchemaTransfer.Proofs.Dump.Scan
import SchemaTransfer.Target.TypeName

/-!
# Types as a dump writes them

A built-in type is a keyword, an argument or none, and options, one space apart. It is known as a
type, and no clause of a column line can begin inside it.
-/
namespace SchemaTransfer.Dump
open Unicode Scan ColumnLine

inductive SizeUnit
  | kilo
  | mega
  | giga

def SizeUnit.char : SizeUnit → Char
  | kilo => 'K'
  | mega => 'M'
  | giga => 'G'

inductive TypeArgument
  | size (digits : Digits) (unit : Option SizeUnit)
  | pair (precision scale : Digits)

namespace TypeArgument

def inner : TypeArgument → List Char
  | size digits unit => digits.chars ++ (unit.map SizeUnit.char).toList
  | pair precision scale => precision.chars ++ ',' :: scale.chars

def text (a : TypeArgument) : List Char := '(' :: (a.inner ++ [')'])

end TypeArgument

inductive TypeOption
  | fixed (words : String) (known : words ∈ fixedOptions)
  | inlineLength (digits : Digits)
  | ccsid (word : Word)

def TypeOption.text : TypeOption → List Char
  | fixed words _ => words.toList
  | inlineLength digits => "INLINE LENGTH ".toList ++ digits.chars
  | ccsid word => "CCSID ".toList ++ word.chars

structure TypeText where
  keyword : String
  known : keyword ∈ typeKeywords := by decide
  argument : Option TypeArgument := none
  options : List TypeOption := []

namespace TypeText

def optionsText (options : List TypeOption) : List Char := options.flatMap fun o => ' ' :: o.text

def argumentText (argument : Option TypeArgument) : List Char := (argument.map (·.text)).getD []

def text (t : TypeText) : List Char :=
  t.keyword.toList ++ (argumentText t.argument ++ optionsText t.options)

end TypeText

/-- The end of a text, or a space. -/
def Breaks (rest : List Char) : Prop := ∀ c ∈ rest.head?, c = ' '

theorem Breaks.head {rest : List Char} (h : Breaks rest) {q : Char → Bool} (hq : q ' ' = false) :
    ∀ c ∈ rest.head?, q c = false := fun c hc => h c hc ▸ hq

theorem TypeText.breaks_optionsText (options : List TypeOption) : Breaks (optionsText options) := by
  cases options with
  | nil => exact fun c hc => by cases hc
  | cons o options => exact fun c hc => (Option.some.inj hc).symm

theorem option?_text (o : TypeOption) {rest : List Char} (h : Breaks rest) :
    option? (o.text ++ rest) = some rest := by
  cases o with
  | fixed words known =>
    have hdiffer : ∀ w ∈ fixedOptions, ∀ v ∈ fixedOptions.takeWhile (· != w),
        differ v.toList (w.toList ++ []) = true := by decide
    show option? (words.toList ++ ([] ++ rest)) = some rest
    rw [option?, oneOf?_append known [] (hdiffer words known)]
    rfl
  | inlineLength digits =>
    show option? ("INLINE LENGTH ".toList ++ digits.chars ++ rest) = some rest
    rw [List.append_assoc, option?, oneOf?_of_differ (by decide), literal?_append,
      Option.bind_some, digits?_append digits (h.head (by decide))]
    rfl
  | ccsid word =>
    have hends : wordEnds (word.chars ++ rest) = false := by
      cases hword : word.chars with
      | nil => exact absurd hword word.nonempty
      | cons c cs => simp [wordEnds, word.words c (hword ▸ List.mem_cons_self)]
    have hdrop : (word.chars ++ rest).dropWhile isWord = rest :=
      dropWhile_exact word.words (h.head (by decide))
    show option? ("CCSID ".toList ++ word.chars ++ rest) = some rest
    rw [List.append_assoc, option?, oneOf?_of_differ (by decide),
      literal?_of_differ (by decide), literal?_append]
    simp [hends, hdrop]

/-- No option begins with a blank. -/
theorem TypeOption.text_eq_cons (o : TypeOption) :
    ∃ c cs, o.text = c :: cs ∧ isBlank c = false ∧ c ≠ '(' := by
  cases o with
  | fixed words known =>
    simp only [fixedOptions, List.mem_cons, List.not_mem_nil, or_false] at known
    rcases known with rfl | rfl | rfl | rfl | rfl | rfl | rfl <;>
      exact ⟨_, _, rfl, by decide, by decide⟩
  | inlineLength digits => exact ⟨'I', _, rfl, by decide, by decide⟩
  | ccsid word => exact ⟨'C', _, rfl, by decide, by decide⟩

theorem areOptions_optionsText (options : List TypeOption) {bound : Nat}
    (h : options.length ≤ bound) : areOptions bound (TypeText.optionsText options) = true := by
  induction options generalizing bound with
  | nil => cases bound <;> rfl
  | cons o options ih =>
    cases bound with
    | zero => cases h
    | succ bound =>
      obtain ⟨c, cs, htext, hc, -⟩ := o.text_eq_cons
      have hcons : TypeText.optionsText (o :: options) =
          ' ' :: (o.text ++ TypeText.optionsText options) := List.flatMap_cons
      have hread : (blanks? (' ' :: (o.text ++ TypeText.optionsText options))).bind option? =
          some (TypeText.optionsText options) := by
        rw [htext, List.cons_append, blanks?_space hc, ← List.cons_append, ← htext,
          Option.bind_some, option?_text o (TypeText.breaks_optionsText options)]
      rw [hcons, areOptions, hread]
      · exact ih (Nat.le_of_succ_le_succ h)
      · simp

theorem length_optionsText (options : List TypeOption) :
    options.length ≤ (TypeText.optionsText options).length := by
  induction options with
  | nil => exact Nat.le_refl _
  | cons o options ih =>
    rw [TypeText.optionsText, List.flatMap_cons, List.length_append, List.length_cons,
      List.length_cons, ← TypeText.optionsText]
    omega

theorem TypeArgument.inner_free (a : TypeArgument) : ')' ∉ a.inner := by
  have hdigits (ds : Digits) : ')' ∉ ds.chars := ds.ne (by decide)
  cases a with
  | size digits unit =>
    cases unit with
    | none => simp [inner, hdigits]
    | some unit => cases unit <;> simp [inner, hdigits, SizeUnit.char]
  | pair precision scale => simp [inner, hdigits]

theorem TypeArgument.text_append (a : TypeArgument) (rest : List Char) :
    a.text ++ rest = '(' :: (a.inner ++ ')' :: rest) := by
  simp [text]

/-- Options are no argument. -/
theorem literal?_optionsText (options : List TypeOption) :
    literal? "(" (trimLeft (TypeText.optionsText options)) = none := by
  cases options with
  | nil => rfl
  | cons o options =>
    obtain ⟨c, cs, htext, hc, hopen⟩ := o.text_eq_cons
    have htrim : trimLeft (TypeText.optionsText (o :: options)) =
        c :: (cs ++ TypeText.optionsText options) := by
      rw [TypeText.optionsText, List.flatMap_cons, htext]
      exact trimLeft_cons hc _
    rw [htrim, literal?_cons_of_ne (d := '(') rfl (Ne.symm hopen)]

theorem argument?_argumentText (argument : Option TypeArgument) (options : List TypeOption) :
    Scan.optional argument? (TypeText.argumentText argument ++ TypeText.optionsText options) =
      TypeText.optionsText options := by
  cases argument with
  | none =>
    have hnone : argument? (TypeText.optionsText options) = none := by
      rw [argument?, literal?_optionsText]
      rfl
    rw [TypeText.argumentText, Option.map_none, Option.getD_none, List.nil_append,
      Scan.optional, hnone, Option.getD_none]
  | some a =>
    have hsome (rest : List Char) : argument? (a.text ++ rest) = some rest := by
      rw [a.text_append, argument?, trimLeft_cons (by decide)]
      show literal? ")" ((a.inner ++ ')' :: rest).dropWhile (· != ')')) = some rest
      rw [dropWhile_ne_append a.inner_free]
      rfl
    rw [TypeText.argumentText, Option.map_some, Option.getD_some, Scan.optional, hsome,
      Option.getD_some]

theorem TypeText.isType_text (t : TypeText) : isType t.text = true := by
  have htail : isTypeTail (argumentText t.argument ++ optionsText t.options) = true := by
    unfold isTypeTail
    rw [argument?_argumentText]
    exact areOptions_optionsText _ (length_optionsText _)
  unfold isType
  rw [Bool.or_eq_true]
  refine .inr (List.any_eq_true.2 ⟨t.keyword, t.known, ?_⟩)
  rw [text, literal?_append]
  exact htail

theorem TypeOption.endsVisible (o : TypeOption) : Unicode.endsVisible o.text = true := by
  cases o with
  | fixed words known =>
    have hall : ∀ w ∈ fixedOptions, Unicode.endsVisible w.toList = true := by decide
    exact hall words known
  | inlineLength digits => exact endsVisible_append _ digits.endsVisible
  | ccsid word => exact endsVisible_append _ word.endsVisible

theorem TypeText.endsVisible (t : TypeText) : Unicode.endsVisible t.text = true := by
  have hkeyword : ∀ w ∈ typeKeywords, Unicode.endsVisible w.toList = true := by decide
  unfold text
  rcases List.eq_nil_or_concat t.options with hoptions | ⟨options, o, hoptions⟩
  · cases hargument : t.argument with
    | none => simpa [hoptions, argumentText, optionsText] using hkeyword _ t.known
    | some a =>
      have hlast : argumentText (some a) ++ optionsText [] = ('(' :: a.inner) ++ [')'] := by
        simp [argumentText, optionsText, TypeArgument.text]
      rw [hoptions, hlast]
      exact endsVisible_append _ (endsVisible_append _ (by decide))
  · rw [hoptions, List.concat_eq_append, optionsText, List.flatMap_append, List.flatMap_singleton]
    exact endsVisible_append _ (endsVisible_append _ (endsVisible_append _
      (endsVisible_append [' '] o.endsVisible)))

/-- A type begins with a letter. -/
theorem TypeText.text_eq_cons (t : TypeText) : ∃ c cs, t.text = c :: cs ∧ isBlank c = false := by
  have hkeyword : ∀ w ∈ typeKeywords, w.toList.head?.any (fun c => !isBlank c) = true := by
    decide
  have hfirst := hkeyword _ t.known
  unfold text
  cases hw : t.keyword.toList with
  | nil =>
    rw [hw] at hfirst
    cases hfirst
  | cons c cs =>
    rw [hw] at hfirst
    exact ⟨c, _, rfl, by simpa using hfirst⟩

theorem TypeText.trim_text (t : TypeText) : trim t.text = t.text := by
  obtain ⟨c, cs, htext, hc⟩ := t.text_eq_cons
  unfold trim
  rw [htext, trimLeft_cons hc, ← htext, trimRight_of_endsVisible t.endsVisible]

/-- A type consists of letters, digits, spaces, commas and parentheses. -/
theorem TypeText.not_mem_text {c : Char} (t : TypeText) (hdigit : isDigit c = false)
    (hword : isWord c = false) (hother : c ∉ [' ', '(', ')', ',']) : c ∉ t.text := by
  have hspace : c ≠ ' ' := fun h => hother (by simp [h])
  have hwords (ws : List String)
      (h : ∀ w ∈ ws, (w.toList.all fun d => isWord d || d == ' ') = true) :
      ∀ w ∈ ws, c ∉ w.toList :=
    fun w hw => not_mem_of_all (h w hw) (by simp [hword, hspace])
  have hkeyword := hwords typeKeywords (by decide) t.keyword t.known
  have hdigits (ds : Digits) : c ∉ ds.chars := ds.ne hdigit
  have hargument : c ∉ argumentText t.argument := by
    have hunit (u : SizeUnit) : c ≠ u.char :=
      (ne_of_test (q := isWord) (by cases u <;> decide) hword).symm
    rcases t.argument with _ | ⟨ds, u⟩ | ⟨precision, scale⟩
    · exact List.not_mem_nil
    · cases u <;> simp_all [argumentText, TypeArgument.text, TypeArgument.inner]
    · simp_all [argumentText, TypeArgument.text, TypeArgument.inner]
  have hoption (o : TypeOption) : c ∉ ' ' :: o.text := by
    have hfront := hwords ["INLINE LENGTH ", "CCSID "] (by decide)
    refine List.not_mem_cons_of_ne_of_not_mem hspace ?_
    cases o with
    | fixed words known => exact hwords fixedOptions (by decide) words known
    | inlineLength ds =>
      exact fun h => (List.mem_append.1 h).elim (hfront _ (by simp)) (hdigits ds)
    | ccsid word => exact fun h => (List.mem_append.1 h).elim (hfront _ (by simp)) (word.ne hword)
  have hoptions : c ∉ optionsText t.options := by
    intro h
    obtain ⟨o, -, ho⟩ := List.mem_flatMap.1 h
    exact hoption o ho
  unfold text
  rw [List.mem_append, List.mem_append, not_or, not_or]
  exact ⟨hkeyword, hargument, hoptions⟩

/-- The number of characters in one unit of a size. -/
def SizeUnit.factor : Option SizeUnit → Nat
  | none => 1
  | some kilo => 1024
  | some mega => 1024 * 1024
  | some giga => 1024 * 1024 * 1024

/-- The digits and the unit of an argument that is a size. -/
def TypeArgument.size? : TypeArgument → Option (Digits × Option SizeUnit)
  | size digits unit => some (digits, unit)
  | pair _ _ => none

namespace TypeText
open SchemaTransfer.TypeName

/-- The number of characters of a character object whose size is given. -/
def objectSize (digits : Digits) (unit : Option SizeUnit) : Nat :=
  Numeral.value digits.chars * SizeUnit.factor unit

/-- Whether the size of a character object is a number that can be read. -/
def fits (t : TypeText) : Bool :=
  match t.argument.bind TypeArgument.size? with
  | some (digits, _) => t.keyword != "CLOB" || digits.chars.length ≤ Numeral.maxDigits
  | none => true

/-- The spelling in the target. -/
def spelling (t : TypeText) : String :=
  match t.argument.bind TypeArgument.size? with
  | some (digits, unit) =>
    if t.keyword = "BLOB" then "bytea"
    else if t.keyword = "CLOB" then
      if varcharLimit < objectSize digits unit then "text"
      else s!"varchar({objectSize digits unit})"
    else .ofList t.text
  | none =>
    if t.text = "DOUBLE".toList then "double precision"
    else if t.text = "LONG VARCHAR".toList then "text"
    else .ofList t.text

end TypeText

namespace TypeName
open SchemaTransfer.TypeName

theorem size?_argumentText (argument : Option TypeArgument) (options : List TypeOption) :
    size? (TypeText.argumentText argument ++ TypeText.optionsText options) =
      (argument.bind TypeArgument.size?).map fun s => (s.1.chars, s.2.map SizeUnit.char) := by
  cases argument with
  | none =>
    rw [TypeText.argumentText, Option.map_none, Option.getD_none, List.nil_append, size?,
      literal?_optionsText]
    rfl
  | some a =>
    rw [TypeText.argumentText, Option.map_some, Option.getD_some, a.text_append, size?,
      trimLeft_cons (by decide)]
    generalize TypeText.optionsText options = rest
    cases a with
    | size digits unit =>
      cases unit with
      | none =>
        show (digits? (trimLeft (digits.chars ++ [] ++ ')' :: rest))).bind _ = _
        rw [List.append_nil, Digits.trimLeft_append, digits?_append digits (by simp; decide)]
        rfl
      | some unit =>
        show (digits? (trimLeft (digits.chars ++ [unit.char] ++ ')' :: rest))).bind _ = _
        rw [List.append_assoc, Digits.trimLeft_append,
          digits?_append digits (by cases unit <;> simp <;> decide)]
        cases unit <;> rfl
    | pair precision scale =>
      show (digits? (trimLeft (precision.chars ++ ',' :: scale.chars ++ ')' :: rest))).bind _ = _
      rw [List.append_assoc, List.cons_append, Digits.trimLeft_append,
        digits?_append precision (by simp; decide)]
      rfl

theorem multiplier?_char (unit : Option SizeUnit) :
    multiplier? (unit.map SizeUnit.char) = some (SizeUnit.factor unit) := by
  rcases unit with _ | _ | _ | _ <;> decide

/-- The size of a large object. -/
theorem bind_size? (w low : String) (hsame : ∀ cs, keyword? low (w.toList ++ cs) = some cs)
    (hother : ∀ v ∈ typeKeywords, v ≠ w → differ low.toList (v.toList.map Casing.fold) = true)
    (t : TypeText) : (keyword? low t.text).bind size? =
      if t.keyword = w then
        (t.argument.bind TypeArgument.size?).map fun s => (s.1.chars, s.2.map SizeUnit.char)
      else none := by
  unfold TypeText.text
  split
  · next hw => rw [hw, hsame, Option.bind_some, size?_argumentText]
  · next hw =>
    rw [keyword?, keywordChars?_of_differ (hother _ t.known hw)]
    rfl

/-- Behind the keyword of a type stands a space or a parenthesis. -/
theorem argumentText_append (t : TypeText) :
    TypeText.argumentText t.argument ++ TypeText.optionsText t.options = [] ∨
      ∃ d cs, (d = ' ' ∨ d = '(') ∧
        TypeText.argumentText t.argument ++ TypeText.optionsText t.options = d :: cs := by
  cases t.argument with
  | some a => exact .inr ⟨'(', _, .inr rfl, rfl⟩
  | none =>
    cases t.options with
    | nil => exact .inl rfl
    | cons o options => exact .inr ⟨' ', _, .inl rfl, rfl⟩

theorem upperCase_text {s : String} (hs : s ∈ ["DOUBLE", "LONG VARCHAR"]) (t : TypeText) :
    upperCase (.ofList t.text) = s ↔ t.text = s.toList := by
  have hkeyword : ∀ w ∈ typeKeywords, upper w.toList = w.toList := by decide
  have hlonger : ∀ s ∈ ["DOUBLE", "LONG VARCHAR"], ∀ w ∈ typeKeywords,
      ¬w.toList ++ [' '] <+: s.toList ∧ ¬w.toList ++ ['('] <+: s.toList := by decide
  have hupper : upperCase (.ofList t.text) = s ↔ upper t.text = s.toList := by
    rw [upperCase, String.toList_ofList]
    constructor
    · rintro rfl
      exact String.toList_ofList.symm
    · intro h
      rw [h, String.ofList_toList]
  rw [hupper]
  unfold TypeText.text
  rcases argumentText_append t with hnil | ⟨d, cs, hd, hcons⟩
  · rw [hnil, List.append_nil, hkeyword _ t.known]
  · have hne (rest : List Char) : t.keyword.toList ++ d :: rest ≠ s.toList := by
      intro heq
      have hstart : t.keyword.toList ++ [d] <+: s.toList :=
        ⟨rest, by rw [List.append_assoc, List.singleton_append, heq]⟩
      rcases hd with rfl | rfl
      · exact (hlonger s hs _ t.known).1 hstart
      · exact (hlonger s hs _ t.known).2 hstart
    have hletter : Casing.upperChar d = [d] := by rcases hd with rfl | rfl <;> decide
    have htext : upper (t.keyword.toList ++ d :: cs) = t.keyword.toList ++ d :: upper cs := by
      have hcs : upper (d :: cs) = d :: upper cs := by
        rw [upper, List.flatMap_cons, hletter]
        rfl
      rw [← hcs, upper, List.flatMap_append, ← upper, hkeyword _ t.known]
      rfl
    rw [hcons, htext]
    exact ⟨fun h => absurd h (hne _), fun h => absurd h (hne _)⟩

theorem characterObject_size (type : String) (digits : Digits) (unit : Option SizeUnit) :
    (characterObject type digits.chars (unit.map SizeUnit.char)).map (·.1) =
      if digits.chars.length ≤ Numeral.maxDigits then
        .ok (if varcharLimit < TypeText.objectSize digits unit then "text"
          else s!"varchar({TypeText.objectSize digits unit})")
      else .error .longNumber := by
  unfold characterObject TypeText.objectSize
  rw [Numeral.natural?, multiplier?_char]
  by_cases hlength : digits.chars.length ≤ Numeral.maxDigits
  · rw [if_pos hlength, if_pos hlength]
    dsimp only
    split <;> rfl
  · rw [if_neg hlength, if_neg hlength]
    rfl

theorem distinct?_text (t : TypeText) : distinct? t.text = none := by
  have hquote : '"' ∉ t.text := t.not_mem_text (by decide) (by decide) (by decide)
  obtain ⟨c, cs, htext, -⟩ := t.text_eq_cons
  rw [htext] at hquote ⊢
  have hc : '"' ≠ c := (List.ne_and_not_mem_of_not_mem_cons hquote).1
  have hnone : quotedText? (c :: cs) = none := by
    unfold quotedText?
    split
    · next heq =>
      cases heq
      exact absurd rfl hc
    · rfl
  rw [distinct?, part?, hnone]
  rfl

/-- A type has the spelling in the target that it should have, unless a number is too long. -/
theorem convert_text (t : TypeText) : (convert t.text).map (·.1) =
    if t.fits then .ok t.spelling else .error .longNumber := by
  have hblob := bind_size? "BLOB" "blob" (fun _ => rfl) (by decide) t
  have hclob := bind_size? "CLOB" "clob" (fun _ => rfl) (by decide) t
  unfold convert TypeText.fits TypeText.spelling
  dsimp only
  rw [t.trim_text, hblob, hclob, distinct?_text]
  cases hsize : t.argument.bind TypeArgument.size? with
  | none =>
    simp only [Option.map_none, ite_self, Option.isSome_none, Bool.false_eq_true, if_false, if_true]
    simp only [upperCase_text (s := "DOUBLE") (by simp),
      upperCase_text (s := "LONG VARCHAR") (by simp)]
    split
    · rfl
    · split <;> rfl
  | some size =>
    obtain ⟨digits, unit⟩ := size
    dsimp only
    by_cases hb : t.keyword = "BLOB"
    · have hother : t.keyword ≠ "CLOB" := by
        rw [hb]
        decide
      rw [if_pos hb, if_pos hb, bne_iff_ne.2 hother]
      rfl
    · rw [if_neg hb, if_neg hb, Option.isSome_none, if_neg Bool.false_ne_true]
      by_cases hc : t.keyword = "CLOB"
      · simp only [hc, if_true, Option.map_some, characterObject_size, bne_self_eq_false,
          Bool.false_or, decide_eq_true_eq]
      · have hopen : '(' ∈ t.text := by
          obtain ⟨a, ha, -⟩ := Option.bind_eq_some_iff.1 hsize
          rw [TypeText.text, ha]
          exact List.mem_append_right _ List.mem_cons_self
        have hother {s : String} (hs : s ∈ ["DOUBLE", "LONG VARCHAR"]) :
            upperCase (.ofList t.text) ≠ s := by
          have hfree : ∀ s ∈ ["DOUBLE", "LONG VARCHAR"], '(' ∉ s.toList := by decide
          rw [Ne, upperCase_text hs]
          intro htext
          exact hfree s hs (htext ▸ hopen)
        simp only [if_neg hc, bne_iff_ne.2 hc, Bool.true_or, if_true,
          if_neg (hother (s := "DOUBLE") (by simp)),
          if_neg (hother (s := "LONG VARCHAR") (by simp))]
        rfl

end TypeName

end SchemaTransfer.Dump
