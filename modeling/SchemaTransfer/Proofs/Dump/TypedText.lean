import Mathlib.Tactic.FinCases
import SchemaTransfer.Proofs.Dump.Scan

/-!
# Statements as a user types them

Views, triggers and functions are dumped as they were typed: keywords in any case, as many blanks
as one likes, and names with or without quotes and a schema. What is typed is read back, by the
recognizer for its kind of object only. The other statements begin with fixed words, and none of
these words leads up to a view, a trigger or a function, so a typed statement is not taken for one
of them whatever its names are.
-/
namespace SchemaTransfer.Dump
open Unicode Scan FirstLine

/-- Blanks, or nothing. -/
structure Pad where
  chars : List Char
  blank : allBlank chars = true

/-- One or more blanks. -/
structure Gap extends Pad where
  nonempty : chars ≠ []

def Gap.space : Gap := ⟨⟨[' '], rfl⟩, List.cons_ne_nil ' ' []⟩

/-- A word in any case. -/
structure Keyword (word : String) where
  chars : List Char
  spells : chars.map Casing.fold = word.toList

inductive TypedName
  | quoted (text : List Char) (nonempty : text ≠ []) (doubleQuoteFree : '"' ∉ text)
  | plain (first : Char) (more : List Char) (starts : startsName first = true)
      (continues : ∀ c ∈ more, continuesName c = true)

namespace TypedName

def token : TypedName → NameToken
  | quoted text _ _ => .quoted text
  | plain first more _ _ => .plain (first :: more)

def text (n : TypedName) : List Char := n.token.written.toList

end TypedName

/-- A schema, with the blanks around the point behind it. -/
structure Qualifier where
  schema : TypedName
  before : Pad
  behind : Pad

def Qualifier.text (q : Qualifier) : List Char :=
  q.schema.text ++ (q.before.chars ++ '.' :: q.behind.chars)

/-- The name of an object, with or without its schema, and the rest of the line. -/
structure TypedNames where
  qualifier : Option Qualifier
  name : TypedName
  rest : List Char
  breaksOff : BreaksOff rest
  oneLine : '\n' ∉ rest
  /-- A name with a point behind it is a schema. -/
  pointless : qualifier = none → (trimLeft rest).head? ≠ some '.'

namespace TypedNames

def text (t : TypedNames) : List Char :=
  (t.qualifier.map (·.text)).getD [] ++ (t.name.text ++ t.rest)

def schema (t : TypedNames) : Option NameToken := t.qualifier.map (·.schema.token)

end TypedNames

/-- The words `OR REPLACE`, with the blanks behind each. -/
structure ReplaceText where
  first : Keyword "or"
  firstGap : Gap
  second : Keyword "replace"
  secondGap : Gap

def ReplaceText.text (r : ReplaceText) : List Char :=
  r.first.chars ++ (r.firstGap.chars ++ (r.second.chars ++ r.secondGap.chars))

/-- The kinds of objects whose statements are typed. -/
inductive TypedObject
  | view
  | trigger
  | function
  deriving DecidableEq

namespace TypedObject

def word : TypedObject → String
  | view => "view"
  | trigger => "trigger"
  | function => "function"

def kind : TypedObject → Kind
  | view => .createView
  | trigger => .createTrigger
  | function => .createFunction

def recognize : TypedObject → List Char → Option Form
  | view => createView?
  | trigger => createTrigger?
  | function => createFunction?

/-- What is kept of the line behind the name. -/
def kept (rest : List Char) : TypedObject → List Char
  | view | trigger => trimLeft rest
  | function => rest

def form (schema : Option NameToken) (name : NameToken) (rest : List Char) : TypedObject → Form
  | view => .createView schema name rest
  | trigger => .createTrigger schema name rest
  | function => .createFunction schema name rest

theorem recognize_eq (o : TypedObject) (cs : List Char) :
    o.recognize cs = (typed? o.word cs).bind fun r =>
      (lastLine? (o.kept r.2)).map fun rest => o.form r.1.1 r.1.2 rest := by
  cases o <;> simp only [recognize, createView?, createTrigger?, createFunction?, word, kept, form,
    Option.bind_eq_bind, Option.pure_def, Option.map_eq_bind, Function.comp_def]

end TypedObject

/-- The first line of a typed statement. -/
structure TypedText (object : TypedObject) where
  create : Keyword "create"
  createGap : Gap
  replace : Option ReplaceText
  word : Keyword object.word
  wordGap : Gap
  names : TypedNames

namespace TypedText

variable {object : TypedObject}

/-- From the keyword for the kind of object on. -/
def objectText (t : TypedText object) : List Char :=
  t.word.chars ++ (t.wordGap.chars ++ t.names.text)

def text (t : TypedText object) : List Char :=
  t.create.chars ++
    (t.createGap.chars ++ ((t.replace.map (·.text)).getD [] ++ t.objectText))

def form (t : TypedText object) : Form :=
  object.form t.names.schema t.names.name.token (object.kept t.names.rest)

end TypedText

theorem Gap.blanks?_append (g : Gap) {rest : List Char} (h : trimLeft rest = rest) :
    blanks? (g.chars ++ rest) = some rest := Scan.blanks?_append g.blank g.nonempty h

theorem Pad.trimLeft_append (p : Pad) {rest : List Char} (h : trimLeft rest = rest) :
    trimLeft (p.chars ++ rest) = rest := by rw [Unicode.trimLeft_append p.blank, h]

/-- What holds for no blank does not hold in front of a character that it does not hold for. -/
theorem Pad.head?_append {q : Char → Bool} (p : Pad)
    (hblank : ∀ {c}, isBlank c = true → q c = false) {d : Char} (hd : q d = false)
    (rest : List Char) : ∀ c ∈ (p.chars ++ d :: rest).head?, q c = false := by
  intro c hc
  cases hchars : p.chars with
  | nil =>
    rw [hchars] at hc
    exact Option.some.inj hc ▸ hd
  | cons b bs =>
    rw [hchars] at hc
    obtain rfl : b = c := Option.some.inj hc
    exact hblank (List.all_eq_true.1 p.blank b (hchars ▸ List.mem_cons_self))

namespace Keyword

variable {w : String}

theorem keyword?_append (k : Keyword w) (rest : List Char) :
    keyword? w (k.chars ++ rest) = some rest := keyword?_of_fold k.spells rest

theorem keyword?_of_differ {v : String} (k : Keyword w) (h : differ v.toList w.toList = true)
    (rest : List Char) : keyword? v (k.chars ++ rest) = none :=
  keywordChars?_of_differ (k.spells ▸ h) rest

theorem trimLeft_append (k : Keyword w) (hw : w.toList.head?.any Char.isLower = true)
    (rest : List Char) : trimLeft (k.chars ++ rest) = k.chars ++ rest := by
  have hspells := k.spells
  cases hchars : k.chars with
  | nil =>
    rw [hchars] at hspells
    rw [← hspells] at hw
    cases hw
  | cons c cs =>
    rw [hchars] at hspells
    rw [← hspells, List.map_cons, List.head?_cons, Option.any_some] at hw
    have hc : isBlank c = false :=
      eq_false_of_isBlank (p := fun c => (Casing.fold c).isLower) (by decide +kernel) hw
    exact trimLeft_cons hc _

end Keyword

theorem continuesName_of_isBlank {c : Char} : isBlank c = true → continuesName c = false :=
  eq_false_of_blank (by decide +kernel)

theorem BreaksOff.continuesName {tail : List Char} (h : BreaksOff tail) :
    ∀ c ∈ tail.head?, continuesName c = false := by
  intro c hc
  rcases h c hc with hblank | rfl
  · exact continuesName_of_isBlank hblank
  · decide +kernel

namespace TypedName

theorem token?_text (n : TypedName) {rest : List Char}
    (h : ∀ c ∈ rest.head?, continuesName c = false) :
    token? (n.text ++ rest) = some (n.token, rest) := by
  cases n with
  | quoted text nonempty doubleQuoteFree =>
    obtain ⟨c, cs, rfl⟩ := List.exists_cons_of_ne_nil nonempty
    have htext : (quoted (c :: cs) nonempty doubleQuoteFree).text ++ rest =
        '"' :: (c :: cs ++ '"' :: rest) := by simp [TypedName.text, token, NameToken.written]
    rw [htext, token?, quotedText?, takeWhile_ne_append doubleQuoteFree,
      dropWhile_ne_append doubleQuoteFree]
    rfl
  | plain first more starts continues =>
    have htext : (plain first more starts continues).text ++ rest = first :: (more ++ rest) := by
      simp [TypedName.text, token, NameToken.written]
    have hquote : first ≠ '"' := ne_of_test starts (by decide +kernel)
    rw [htext, token?, if_pos starts, takeWhile_exact continues h, dropWhile_exact continues h]
    · rfl
    · simpa using hquote

theorem trimLeft_text (n : TypedName) (rest : List Char) :
    trimLeft (n.text ++ rest) = n.text ++ rest := by
  have hstarts : ∀ c, startsName c = true → isBlank c = false := fun c =>
    eq_false_of_isBlank (by decide +kernel)
  cases n with
  | quoted text _ _ => simpa [TypedName.text, token, NameToken.written] using trimLeft_cons rfl _
  | plain first more starts _ =>
    simpa [TypedName.text, token, NameToken.written] using trimLeft_cons (hstarts first starts) _

end TypedName

theorem Qualifier.text_append (q : Qualifier) (rest : List Char) : q.text ++ rest =
    q.schema.text ++ (q.before.chars ++ '.' :: (q.behind.chars ++ rest)) := by simp [Qualifier.text]

theorem TypedNames.tokens?_text (t : TypedNames) :
    tokens? t.text = some ((t.schema, t.name.token), t.rest) := by
  have hname : token? (t.name.text ++ t.rest) = some (t.name.token, t.rest) :=
    t.name.token?_text t.breaksOff.continuesName
  unfold TypedNames.text TypedNames.schema tokens?
  cases hqualifier : t.qualifier with
  | none =>
    have hpoint : literal? "." (trimLeft t.rest) = none := by
      refine literal?_eq_none fun rest heq => t.pointless hqualifier ?_
      rw [← heq]
      rfl
    simp [hname, hpoint]
  | some q =>
    have hpoint (cs : List Char) :
        literal? "." (trimLeft (q.before.chars ++ '.' :: cs)) = some cs := by
      rw [q.before.trimLeft_append (trimLeft_cons (by decide) _)]
      rfl
    have hends := fun cs => q.before.head?_append (d := '.') continuesName_of_isBlank
      (by decide +kernel) cs
    simp [q.text_append, q.schema.token?_text (hends _), hpoint,
      q.behind.trimLeft_append (t.name.trimLeft_text _), hname]

theorem TypedNames.trimLeft_text (t : TypedNames) : trimLeft t.text = t.text := by
  unfold TypedNames.text
  cases t.qualifier with
  | none => exact t.name.trimLeft_text _
  | some q =>
    rw [Option.map_some, Option.getD_some, q.text_append]
    exact q.schema.trimLeft_text _

namespace TypedText

variable {object : TypedObject} (t : TypedText object)

theorem trimLeft_objectText : trimLeft t.objectText = t.objectText :=
  t.word.trimLeft_append (by cases object <;> decide) _

theorem optional_replace (t : TypedText object) :
    Scan.optional (fun cs => (keyword? "or" cs).bind fun cs => (blanks? cs).bind fun cs =>
      (keyword? "replace" cs).bind fun cs => blanks? cs)
      ((t.replace.map (·.text)).getD [] ++ t.objectText) = t.objectText := by
  unfold Scan.optional
  cases t.replace with
  | none =>
    have hor : keyword? "or" t.objectText = none :=
      t.word.keyword?_of_differ (by cases object <;> decide) _
    simp [hor]
  | some r =>
    have htext : r.text ++ t.objectText = r.first.chars ++ (r.firstGap.chars ++
        (r.second.chars ++ (r.secondGap.chars ++ t.objectText))) := by simp [ReplaceText.text]
    simp [htext, r.first.keyword?_append,
      r.firstGap.blanks?_append (r.second.trimLeft_append rfl _), r.second.keyword?_append,
      r.secondGap.blanks?_append t.trimLeft_objectText]

/-- Up to the keyword for the kind of object, all kinds are read alike. -/
theorem typed?_eq (other : TypedObject) :
    typed? other.word t.text = (keyword? other.word t.objectText).bind fun cs =>
      (blanks? cs).bind tokens? := by
  have hstart : trimLeft ((t.replace.map (·.text)).getD [] ++ t.objectText) =
      (t.replace.map (·.text)).getD [] ++ t.objectText := by
    cases t.replace with
    | none => exact t.trimLeft_objectText
    | some r => simpa [ReplaceText.text] using r.first.trimLeft_append rfl _
  rw [typed?, text, t.create.keyword?_append]
  simp only [Option.bind_eq_bind, Option.bind_some, t.createGap.blanks?_append hstart]
  rw [t.optional_replace]

theorem typed?_text :
    typed? object.word t.text = some ((t.names.schema, t.names.name.token), t.names.rest) := by
  rw [t.typed?_eq, objectText, t.word.keyword?_append, Option.bind_some,
    t.wordGap.blanks?_append t.names.trimLeft_text, Option.bind_some, t.names.tokens?_text]

theorem typed?_of_ne {other : TypedObject} (h : other ≠ object) :
    typed? other.word t.text = none := by
  have hdiffer : differ other.word.toList object.word.toList = true := by
    cases other <;> cases object <;> first | decide | exact absurd rfl h
  rw [t.typed?_eq, objectText, t.word.keyword?_of_differ hdiffer, Option.bind_none]

theorem recognize_text : object.recognize t.text = some t.form := by
  have hline : '\n' ∉ object.kept t.names.rest := by
    cases object with
    | function => exact t.names.oneLine
    | view | trigger => exact fun h => t.names.oneLine ((List.dropWhile_suffix _).mem h)
  rw [object.recognize_eq, t.typed?_text, Option.bind_some, lastLine?_of_not_mem hline,
    Option.map_some, form]

theorem recognize_of_ne {other : TypedObject} (h : other ≠ object) :
    other.recognize t.text = none := by
  rw [other.recognize_eq, t.typed?_of_ne h, Option.bind_none]

end TypedText

/-- The words that the other statements begin with. -/
def fixedWords : List String :=
  ignoredStarts ++ tablespaceStarts ++
    ["CREATE ROLE ", "COMMENT ON ROLE ", "CREATE SCHEMA ", "CREATE SEQUENCE ", "ALTER SEQUENCE ",
     "CREATE TABLE ", "ALTER TABLE ", "CREATE INDEX ", "CREATE UNIQUE INDEX ",
     "COMMENT ON COLUMN ", "COMMENT ON TABLE ", "CREATE DISTINCT TYPE ", "SET CURRENT SCHEMA",
     "SET CURRENT PATH", "COMMENT ON TRIGGER "]

def StartsFixed (cs : List Char) : Prop := ∃ w ∈ fixedWords, ∃ rest, cs = w.toList ++ rest

theorem startsFixed_of_literal? {w : String} (hw : w ∈ fixedWords) {cs rest : List Char}
    (h : literal? w cs = some rest) : StartsFixed cs := ⟨w, hw, rest, (literal?_eq_some.1 h).symm⟩

theorem startsFixed_of_bind {w : String} {cs : List Char} {f : List Char → Option Form}
    {form : Form} (h : (literal? w cs).bind f = some form) (hw : w ∈ fixedWords) :
    StartsFixed cs := by
  obtain ⟨rest, hrest, -⟩ := Option.bind_eq_some_iff.1 h
  exact startsFixed_of_literal? hw hrest

section

variable {cs : List Char} {form : Form}

theorem startsFixed_of_ignoredStart? (h : ignoredStart? cs = some form) : StartsFixed cs := by
  unfold ignoredStart? at h
  split at h
  · next hstarts =>
    obtain ⟨w, hw, hends⟩ := List.any_eq_true.1 hstarts
    cases hrest : literal? w cs with
    | none => simp [hrest] at hends
    | some rest => exact startsFixed_of_literal? (by simp [fixedWords, hw]) hrest
  · cases h

theorem startsFixed_of_createTablespace? (h : createTablespace? cs = some form) :
    StartsFixed cs := by
  obtain ⟨⟨v, _⟩, hfirst, -⟩ := Option.bind_eq_some_iff.1 h
  obtain ⟨w, hw, hword⟩ := List.exists_of_findSome?_eq_some hfirst
  obtain ⟨rest, hrest, -⟩ := Option.map_eq_some_iff.1 hword
  exact startsFixed_of_literal? (by simp [fixedWords, hw]) hrest

theorem startsFixed_of_createIndex? (h : createIndex? cs = some form) : StartsFixed cs := by
  obtain ⟨mid, hcreate, h⟩ := Option.bind_eq_some_iff.1 h
  obtain ⟨rest, hindex, -⟩ := Option.bind_eq_some_iff.1 h
  obtain rfl := literal?_eq_some.1 hcreate
  cases hunique : literal? "UNIQUE " mid with
  | none =>
    rw [hunique, Option.getD_none] at hindex
    obtain rfl := literal?_eq_some.1 hindex
    exact ⟨"CREATE INDEX ", by decide, rest, rfl⟩
  | some behind =>
    rw [hunique, Option.getD_some] at hindex
    obtain rfl := literal?_eq_some.1 hunique
    obtain rfl := literal?_eq_some.1 hindex
    exact ⟨"CREATE UNIQUE INDEX ", by decide, rest, rfl⟩

/-- What any recognizer ahead of those for typed objects finds starts with a fixed word. -/
theorem startsFixed_of_recognized {recognize : List Char → Option Form}
    (hmem : recognize ∈ commentTrigger? :: recognizers.take 17) (h : recognize cs = some form) :
    StartsFixed cs := by
  fin_cases hmem <;>
    first
    | exact startsFixed_of_bind h (by decide)
    | exact startsFixed_of_ignoredStart? h
    | exact startsFixed_of_createTablespace? h
    | exact startsFixed_of_createIndex? h

end

/-- None of the fixed words leads up to a typed object. -/
theorem typed?_of_startsFixed {cs : List Char} (h : StartsFixed cs) (object : TypedObject) :
    typed? object.word cs = none := by
  obtain ⟨w, hw, rest, rfl⟩ := h
  fin_cases hw <;> cases object <;> rfl

theorem TypedText.recognized_eq_none {object : TypedObject} (t : TypedText object) :
    ∀ recognize ∈ commentTrigger? :: recognizers.take 17, recognize t.text = none := by
  intro recognize hmem
  by_contra hform
  obtain ⟨form, hform⟩ := Option.ne_none_iff_exists'.1 hform
  have hnone := typed?_of_startsFixed (startsFixed_of_recognized hmem hform) object
  cases hnone.symm.trans t.typed?_text

/-- A typed statement is recognized as what it is. -/
theorem TypedText.ofLine?_text {object : TypedObject} (t : TypedText object) :
    Form.ofLine? t.text = some t.form := by
  obtain ⟨hcomment, hfixed⟩ := List.forall_mem_cons.1 t.recognized_eq_none
  have htrim : trimLeft t.text = t.text := t.create.trimLeft_append rfl _
  have hbefore := List.findSome?_eq_none_iff.2 hfixed
  have hform := t.recognize_text
  have hother {other : TypedObject} (hne : other ≠ object) : other.recognize t.text = none :=
    t.recognize_of_ne hne
  rw [Form.ofLine?, htrim, ← List.take_append_drop 17 recognizers, List.findSome?_append, hbefore,
    Option.none_or]
  show List.findSome? _ [TypedObject.view.recognize, TypedObject.trigger.recognize,
    commentTrigger?, TypedObject.function.recognize, grant?] = _
  cases object with
  | view => simp [hform]
  | trigger => simp [hother, hform]
  | function => simp [hother, hcomment, hform]

end SchemaTransfer.Dump
