import SchemaTransfer.Proofs.Dump.TypedText
import SchemaTransfer.Proofs.Extent

/-!
# First lines as they are written

One way to write a first line for each kind of statement that has a meaning for the target. Names
stand between double quotes, so the words in them are never read as part of the line, and each line
gets back the form that it was written for: its own recognizer reads it, and those before it fail
at a word in front of the first name. Only the change of an identity gets further with another
recognizer, up to where the line of a changed table would end.
-/
namespace SchemaTransfer.Dump
open Unicode Scan FirstLine

/-- What stands between the double quotes of a name, with the blanks that pad it. -/
structure QuotedName where
  inside : List Char
  doubleQuoteFree : '"' ∉ inside

namespace QuotedName

def text (n : QuotedName) : List Char := inQuotes n.inside

def name (n : QuotedName) : String := .ofList (trimRight n.inside)

/-- A name that nothing pads. -/
def ofName {name : String} (h : IsName name) : QuotedName := ⟨name.toList, h.quoteFree⟩

@[simp] theorem name_ofName {name : String} (h : IsName name) : (ofName h).name = name := by
  rw [QuotedName.name, ofName, h.trimmed, String.ofList_toList]

end QuotedName

structure QualifiedName where
  schema : QuotedName
  name : QuotedName

def QualifiedName.text (n : QualifiedName) : List Char :=
  inQuotesBoth n.schema.inside n.name.inside

/-- A comment from the blanks before its keyword to the end of the line. -/
structure CommentText where
  gap : Gap
  content : List Char
  oneLine : '\n' ∉ content

def CommentText.text (c : CommentText) : List Char := c.gap.chars ++ ("IS '".toList ++ c.content)

/-- A new start from the blanks before its keywords to the end of the line. -/
structure RestartText where
  gap : Gap
  negative : Bool
  digits : Digits
  pad : Pad

namespace RestartText

def value (r : RestartText) : List Char :=
  if r.negative then '-' :: r.digits.chars else r.digits.chars

def text (r : RestartText) : List Char :=
  r.gap.chars ++ ("RESTART WITH ".toList ++ (r.value ++ r.pad.chars))

end RestartText

/-- The role that owns a schema. -/
structure OwnerText where
  before : Gap
  behind : Gap
  name : QuotedName

def OwnerText.text (o : OwnerText) : List Char :=
  o.before.chars ++ ("AUTHORIZATION".toList ++ (o.behind.chars ++ o.name.text))

inductive SequenceType
  | integer (word : String) (known : word ∈ ["SMALLINT", "INTEGER", "BIGINT"])
  /-- The scale is zero if it is there, with blanks on either side of it. -/
  | decimal (outer inner : Pad) (precision : Digits) (behind : Pad) (scale : Option (Pad × Pad))

namespace SequenceType

def scaleText : Option (Pad × Pad) → List Char
  | none => []
  | some (before, behind) =>
    ",".toList ++ (before.chars ++ ("0".toList ++ behind.chars))

def text : SequenceType → List Char
  | integer word _ => word.toList
  | decimal outer inner precision behind scale =>
    "DECIMAL".toList ++ (outer.chars ++ ("(".toList ++ (inner.chars ++ (precision.chars ++
      (behind.chars ++ (scaleText scale ++ ")".toList))))))

end SequenceType

structure AsText where
  before : Gap
  behind : Gap
  type : SequenceType

def AsText.text (a : AsText) : List Char :=
  a.before.chars ++ ("AS".toList ++ (a.behind.chars ++ a.type.text))

/-- The base of a distinct type and what follows it. -/
structure BaseText where
  base : List Char
  comparisons : Option Gap
  pad : Pad
  visible : endsVisible base = true
  oneLine : '\n' ∉ base
  comparisonFree : ¬ "WITH COMPARISONS".toList <:+ base

namespace BaseText

def comparisonsText (b : BaseText) : List Char :=
  (b.comparisons.map fun gap => gap.chars ++ "WITH COMPARISONS".toList).getD []

def text (b : BaseText) : List Char := b.base ++ (b.comparisonsText ++ b.pad.chars)

end BaseText

/-- The schemas of a path as they are listed. -/
structure PathText where
  chars : List Char
  starts : startsVisible chars = true
  ends : endsVisible chars = true
  oneLine : '\n' ∉ chars

/-- A first line of a kind of statements. There is none of those that are ignored. -/
inductive FirstLineText : Kind → Type
  | createTablespace (words : String) (known : words ∈ tablespaceStarts) (name : QuotedName)
      (rest : List Char) : FirstLineText .createTablespace
  | createRole (name : QuotedName) (pad : Pad) : FirstLineText .createRole
  | commentRole (name : QuotedName) (comment : CommentText) : FirstLineText .commentRole
  | createSchema (name : QuotedName) (owner : Option OwnerText) (pad : Pad) :
      FirstLineText .createSchema
  | createSequence (name : QualifiedName) (type : Option AsText) (pad : Pad) :
      FirstLineText .createSequence
  | restartSequence (name : QualifiedName) (restart : RestartText) :
      FirstLineText .restartSequence
  | createTable (name : QualifiedName) (gap pad : Pad) : FirstLineText .createTable
  | alterTable (name : QualifiedName) (pad : Pad) : FirstLineText .alterTable
  | restartIdentity (owner : QualifiedName) (gap : Gap) (column : QuotedName)
      (restart : RestartText) : FirstLineText .restartIdentity
  | createIndex (unique : Bool) (name : QualifiedName) (before behind : Gap)
      (owner : QualifiedName) (pad : Pad) : FirstLineText .createIndex
  | commentColumn (owner : QualifiedName) (column : QuotedName) (comment : CommentText) :
      FirstLineText .commentColumn
  | commentTable (name : QualifiedName) (comment : CommentText) : FirstLineText .commentTable
  /-- Blanks may stand before the quote that closes the name of the system schema. -/
  | createDomain (name : QualifiedName) (before behind : Gap) (inner : Pad) (base : BaseText) :
      FirstLineText .createDomain
  | setSchema (before behind : Pad) (schema : QuotedName) (pad : Pad) : FirstLineText .setSchema
  | setPath (before behind : Pad) (path : PathText) (pad : Pad) : FirstLineText .setPath
  | commentTrigger (schema : QuotedName) (gap : Pad) (name : QuotedName)
      (comment : CommentText) : FirstLineText .commentTrigger
  | typed (object : TypedObject) (statement : TypedText object) : FirstLineText object.kind

namespace FirstLineText

variable {k : Kind}

def text : FirstLineText k → List Char
  | createTablespace words _ name rest => words.toList ++ (name.text ++ rest)
  | createRole name pad => "CREATE ROLE ".toList ++ (name.text ++ pad.chars)
  | commentRole name comment => "COMMENT ON ROLE ".toList ++ (name.text ++ comment.text)
  | createSchema name owner pad =>
    "CREATE SCHEMA ".toList ++ (name.text ++ ((owner.map (·.text)).getD [] ++ pad.chars))
  | createSequence name type pad =>
    "CREATE SEQUENCE ".toList ++ (name.text ++ ((type.map (·.text)).getD [] ++ pad.chars))
  | restartSequence name restart => "ALTER SEQUENCE ".toList ++ (name.text ++ restart.text)
  | createTable name gap pad =>
    "CREATE TABLE ".toList ++ (name.text ++ (gap.chars ++ ("(".toList ++ pad.chars)))
  | alterTable name pad => "ALTER TABLE ".toList ++ (name.text ++ pad.chars)
  | restartIdentity owner gap column restart =>
    "ALTER TABLE ".toList ++ (owner.text ++ (gap.chars ++
      ("ALTER COLUMN ".toList ++ (column.text ++ restart.text))))
  | createIndex unique name before behind owner pad =>
    indexWords unique ++ (name.text ++ (before.chars ++ ("ON".toList ++ (behind.chars ++
      (owner.text ++ pad.chars)))))
  | commentColumn owner column comment =>
    "COMMENT ON COLUMN ".toList ++ (owner.text ++ (".".toList ++ (column.text ++ comment.text)))
  | commentTable name comment => "COMMENT ON TABLE ".toList ++ (name.text ++ comment.text)
  | createDomain name before behind inner base =>
    "CREATE DISTINCT TYPE ".toList ++ (name.text ++ (before.chars ++ ("AS".toList ++
      (behind.chars ++ ("\"SYSIBM".toList ++ (inner.chars ++ ("\".".toList ++ base.text)))))))
  | setSchema before behind schema pad =>
    "SET CURRENT SCHEMA".toList ++ (before.chars ++ ("=".toList ++ (behind.chars ++
      (schema.text ++ pad.chars))))
  | setPath before behind path pad =>
    "SET CURRENT PATH".toList ++ (before.chars ++ ("=".toList ++ (behind.chars ++
      (path.chars ++ pad.chars))))
  | commentTrigger schema gap name comment =>
    "COMMENT ON TRIGGER ".toList ++ (schema.text ++ (gap.chars ++ (".".toList ++
      (name.text ++ comment.text))))
  | typed _ statement => statement.text

def form : FirstLineText k → Form
  | createTablespace _ _ name _ => .createTablespace name.name
  | createRole name _ => .createRole name.name
  | commentRole name comment => .commentRole name.name comment.content
  | createSchema name owner _ => .createSchema name.name (owner.map (·.name.name))
  | createSequence name _ _ => .createSequence name.schema.name name.name.name
  | restartSequence name restart => .restartSequence name.schema.name name.name.name restart.value
  | createTable name _ _ => .createTable name.schema.name name.name.name
  | alterTable name _ => .alterTable name.schema.name name.name.name
  | restartIdentity owner _ column restart =>
    .restartIdentity owner.schema.name owner.name.name column.name restart.value
  | createIndex unique name _ _ owner _ =>
    .createIndex unique name.schema.name name.name.name owner.schema.name owner.name.name
  | commentColumn owner column comment =>
    .commentColumn owner.schema.name owner.name.name column.name comment.content
  | commentTable name comment => .commentTable name.schema.name name.name.name comment.content
  | createDomain name _ _ _ base => .createDomain name.schema.name name.name.name base.base
  | setSchema _ _ schema _ => .setSchema schema.name
  | setPath _ _ path _ => .setPath (.ofList path.chars)
  | commentTrigger schema _ name comment =>
    .commentTrigger schema.name name.name comment.content
  | typed _ statement => statement.form

end FirstLineText

theorem Pad.finish?_chars (p : Pad) : finish? p.chars = some () := finish?_of_allBlank p.blank

theorem Pad.trimLeft_word (p : Pad) {w : String} (hw : startsVisible w.toList = true)
    (rest : List Char) : trimLeft (p.chars ++ (w.toList ++ rest)) = w.toList ++ rest :=
  p.trimLeft_append (trimLeft_of_startsVisible hw rest)

theorem Pad.allBlank_word (p : Pad) {w : String} (hw : startsVisible w.toList = true)
    (rest : List Char) : allBlank (p.chars ++ (w.toList ++ rest)) = false := by
  unfold startsVisible at hw
  cases hchars : w.toList with
  | nil => simp [hchars] at hw
  | cons c cs =>
    have hc : isBlank c = false := by simpa [hchars] using hw
    simp [allBlank, hc]

theorem Gap.blanks?_word (g : Gap) {w : String} (hw : startsVisible w.toList = true)
    (rest : List Char) : blanks? (g.chars ++ (w.toList ++ rest)) = some (w.toList ++ rest) :=
  g.blanks?_append (trimLeft_of_startsVisible hw rest)

theorem QuotedName.name?_text (n : QuotedName) (rest : List Char) :
    name? (n.text ++ rest) = some (n.name, rest) := name?_inQuotes n.doubleQuoteFree rest

theorem QuotedName.trimLeft_text (n : QuotedName) (rest : List Char) :
    trimLeft (n.text ++ rest) = n.text ++ rest := trimLeft_of_startsVisible rfl rest

theorem QualifiedName.qualified?_text (n : QualifiedName) (rest : List Char) :
    qualified? (n.text ++ rest) = some ((n.schema.name, n.name.name), rest) :=
  qualified?_inQuotes n.schema.doubleQuoteFree n.name.doubleQuoteFree rest

theorem QualifiedName.trimLeft_text (n : QualifiedName) (rest : List Char) :
    trimLeft (n.text ++ rest) = n.text ++ rest := trimLeft_of_startsVisible rfl rest

theorem CommentText.commentText?_text (c : CommentText) : commentText? c.text = some c.content := by
  rw [CommentText.text, commentText?, c.gap.blanks?_word rfl]
  simp only [Option.bind_eq_bind, Option.bind_some, literal?_append, lastLine?_of_not_mem c.oneLine]

theorem RestartText.restartValue?_text (r : RestartText) : restartValue? r.text = some r.value := by
  have hnumber : number? (r.value ++ r.pad.chars) = some (r.value, r.pad.chars) := by
    have hhead := head_of_allBlank r.pad.blank
    unfold RestartText.value
    cases r.negative with
    | false => exact number?_append r.digits hhead
    | true => simp [number?, digits?_append r.digits hhead]
  rw [RestartText.text, restartValue?, r.gap.blanks?_word rfl]
  simp only [Option.bind_eq_bind, Option.bind_some, literal?_append, hnumber, r.pad.finish?_chars]
  rfl

namespace SequenceType

theorem literal?_scaleText (scale : Option (Pad × Pad)) (rest : List Char) :
    literal? ")" (Scan.optional (fun cs => (literal? "," cs).bind fun cs =>
      (literal? "0" (trimLeft cs)).bind fun cs => some (trimLeft cs))
      (scaleText scale ++ (")".toList ++ rest))) = some rest := by
  cases scale with
  | none => rfl
  | some scale =>
    obtain ⟨before, behind⟩ := scale
    simp only [scaleText, List.append_assoc, Scan.optional, literal?_append, Option.bind_some,
      before.trimLeft_word (w := "0") rfl, behind.trimLeft_word (w := ")") rfl, Option.getD_some]

/-- What follows the precision does not carry it on. -/
theorem scaleText_append (scale : Option (Pad × Pad)) (rest : List Char) :
    ∃ c cs, scaleText scale ++ (")".toList ++ rest) = c :: cs ∧ isBlank c = false ∧
      isDigit c = false := by
  cases scale with
  | none => exact ⟨')', rest, rfl, rfl, by decide⟩
  | some scale => exact ⟨',', _, rfl, rfl, by decide⟩

theorem oneOf?_integer : ∀ word ∈ ["SMALLINT", "INTEGER", "BIGINT"],
    ∀ v ∈ ["SMALLINT", "INTEGER", "BIGINT"].takeWhile (· != word),
      differ v.toList (word.toList ++ []) = true := by
  decide

theorem sequenceType?_integer {word : String} (known : word ∈ ["SMALLINT", "INTEGER", "BIGINT"])
    (rest : List Char) : sequenceType? (word.toList ++ rest) = some rest := by
  have hword := oneOf?_append known [] (oneOf?_integer word known) rest
  rw [List.nil_append] at hword
  rw [sequenceType?, hword]
  rfl

theorem sequenceType?_text (t : SequenceType) (rest : List Char) :
    sequenceType? (t.text ++ rest) = some rest := by
  cases t with
  | integer word known =>
    exact sequenceType?_integer known rest
  | decimal outer inner precision behind scale =>
    obtain ⟨c, cs, hscale, hc, hdigit⟩ := scaleText_append scale rest
    have hnone (cs : List Char) :
        oneOf? ["SMALLINT", "INTEGER", "BIGINT"] ("DECIMAL".toList ++ cs) = none :=
      oneOf?_of_differ (by decide) cs
    have hhead := behind.head?_append isDigit_of_isBlank hdigit cs
    have hdigits := digits?_append precision hhead
    have hbehind : trimLeft (behind.chars ++ c :: cs) = c :: cs :=
      behind.trimLeft_append (trimLeft_cons hc cs)
    rw [← hscale] at hdigits hbehind
    have htext : (decimal outer inner precision behind scale).text =
        "DECIMAL".toList ++ (outer.chars ++ ("(".toList ++ (inner.chars ++ (precision.chars ++
          (behind.chars ++ (scaleText scale ++ ")".toList)))))) := rfl
    rw [htext, sequenceType?]
    simp only [List.append_assoc, hnone, Option.map_none, literal?_append, Option.bind_eq_bind,
      Option.bind_some, outer.trimLeft_word (w := "(") rfl,
      inner.trimLeft_append (precision.trimLeft_append _), hdigits, hbehind]
    exact literal?_scaleText scale rest

theorem trimLeft_text (t : SequenceType) (rest : List Char) :
    trimLeft (t.text ++ rest) = t.text ++ rest := by
  have hwords : ∀ word ∈ ["SMALLINT", "INTEGER", "BIGINT"], startsVisible word.toList = true := by
    decide
  cases t with
  | integer word known => exact trimLeft_of_startsVisible (hwords word known) rest
  | decimal => rfl

end SequenceType

theorem AsText.text_append (a : AsText) (pad : Pad) : a.text ++ pad.chars =
    a.before.chars ++ ("AS".toList ++ (a.behind.chars ++ (a.type.text ++ pad.chars))) := by
  simp only [AsText.text, List.append_assoc]

theorem OwnerText.text_append (o : OwnerText) (pad : Pad) : o.text ++ pad.chars =
    o.before.chars ++ ("AUTHORIZATION".toList ++
      (o.behind.chars ++ (o.name.text ++ pad.chars))) := by
  simp only [OwnerText.text, List.append_assoc]

namespace BaseText

theorem domainEnd?_behind (b : BaseText) :
    domainEnd? (b.comparisonsText ++ b.pad.chars) = some () := by
  have hfinish := b.pad.finish?_chars
  unfold domainEnd? comparisonsText
  cases b.comparisons with
  | none =>
    have heither (o : Option Unit) : (o <|> some ()) = some () := by cases o <;> rfl
    rw [Option.map_none, Option.getD_none, List.nil_append, hfinish]
    exact heither _
  | some gap =>
    simp only [Option.map_some, Option.getD_some, List.append_assoc,
      gap.blanks?_word (w := "WITH COMPARISONS") rfl, Option.bind_eq_bind, Option.bind_some,
      literal?_append, hfinish]
    rfl

theorem trimRight_text (b : BaseText) {text : List Char} (h : endsVisible text = true) :
    trimRight (text ++ (b.comparisonsText ++ b.pad.chars)) = text ++ b.comparisonsText := by
  rw [← List.append_assoc, trimRight_append_of_allBlank b.pad.blank]
  refine trimRight_of_endsVisible ?_
  unfold comparisonsText
  cases b.comparisons with
  | none => simpa using h
  | some gap => exact endsVisible_append _ (endsVisible_append _ rfl)

/-- No end of the base goes on as blanks and the words for comparisons would. -/
theorem ne_comparisons (b : BaseText) {part front back : List Char}
    (hvisible : endsVisible part = true) (hpart : part <:+ b.base)
    (hfront : allBlank front = true) (hback : allBlank back = true) :
    part ++ (b.comparisonsText ++ b.pad.chars) ≠
      front ++ ("WITH COMPARISONS".toList ++ back) := by
  intro h
  have hends := congrArg trimRight h
  rw [b.trimRight_text hvisible, ← List.append_assoc, trimRight_append_of_allBlank hback,
    trimRight_of_endsVisible (endsVisible_append _ rfl)] at hends
  unfold comparisonsText at hends
  cases hcomparisons : b.comparisons with
  | none =>
    rw [hcomparisons, Option.map_none, Option.getD_none, List.append_nil] at hends
    exact b.comparisonFree (List.IsSuffix.trans ⟨front, hends.symm⟩ hpart)
  | some gap =>
    rw [hcomparisons, Option.map_some, Option.getD_some, ← List.append_assoc] at hends
    have hblank := allBlank_eq_false hvisible gap.chars
    rw [List.append_cancel_right hends, hfront] at hblank
    cases hblank

/-- The base does not end early. -/
theorem domainEnd?_suffix (b : BaseText) {part : List Char} (hne : part ≠ [])
    (hpart : part <:+ b.base) :
    domainEnd? (part ++ (b.comparisonsText ++ b.pad.chars)) = none := by
  have hvisible := endsVisible_of_suffix b.visible hpart hne
  have hfinish : finish? (part ++ (b.comparisonsText ++ b.pad.chars)) = none := by
    rw [finish?, allBlank_eq_false hvisible]
    rfl
  have hwords : ((blanks? (part ++ (b.comparisonsText ++ b.pad.chars))).bind fun cs =>
      (literal? "WITH COMPARISONS" cs).bind finish?) = none := by
    rw [Option.eq_none_iff_forall_ne_some]
    intro _ hsome
    obtain ⟨cs, hblanks, hsome⟩ := Option.bind_eq_some_iff.1 hsome
    obtain ⟨back, hword, hback⟩ := Option.bind_eq_some_iff.1 hsome
    obtain ⟨front, htext, hfront⟩ := passes_blanks? hblanks
    obtain rfl := literal?_eq_some.1 hword
    have hblank : allBlank back = true := by
      by_contra hback'
      simp [finish?, hback'] at hback
    exact b.ne_comparisons hvisible hpart (List.all_eq_true.2 hfront) hblank htext
  rw [domainEnd?, hfinish]
  simp only [Option.bind_eq_bind, hwords]
  rfl

theorem shortestNonempty?_text (b : BaseText) :
    shortestNonempty? domainEnd? b.text = some (b.base, ()) := by
  obtain ⟨c, cs, hbase⟩ : ∃ c cs, b.base = c :: cs := by
    refine List.exists_cons_of_ne_nil fun hnil => ?_
    have hvisible := b.visible
    rw [hnil] at hvisible
    cases hvisible
  have hline := b.oneLine
  rw [hbase, List.mem_cons, not_or] at hline
  have hfeed : (c == '\n') = false := by simpa using Ne.symm hline.1
  have hsolid : Solid domainEnd? cs (b.comparisonsText ++ b.pad.chars) :=
    solid_of_suffix fun part hne hpart =>
      b.domainEnd?_suffix hne (hbase ▸ hpart.trans (List.suffix_cons c cs))
  rw [text, hbase, List.cons_append, shortestNonempty?, hfeed,
    shortest?_append hline.2 hsolid b.domainEnd?_behind]
  rfl

end BaseText

namespace FirstLineText

theorem tablespaceStarts_differ : ∀ words ∈ tablespaceStarts,
    ∀ others ∈ tablespaceStarts.takeWhile (· != words),
      differ others.toList (words.toList ++ []) = true := by
  decide

theorem createTablespace?_text {words : String} (known : words ∈ tablespaceStarts)
    (name : QuotedName) (rest : List Char) :
    createTablespace? (words.toList ++ (name.text ++ rest)) =
      some (.createTablespace name.name) := by
  have hwords : oneOf? tablespaceStarts (words.toList ++ (name.text ++ rest)) =
      some (words, name.text ++ rest) :=
    oneOf?_append known [] (tablespaceStarts_differ words known) (name.text ++ rest)
  simp only [createTablespace?, hwords, Option.bind_eq_bind, Option.bind_some, name.name?_text,
    Option.pure_def]

theorem createRole?_text (name : QuotedName) (pad : Pad) :
    createRole? ("CREATE ROLE ".toList ++ (name.text ++ pad.chars)) =
      some (.createRole name.name) := by
  simp only [createRole?, Option.bind_eq_bind, Option.bind_some, literal?_append, name.name?_text,
    pad.finish?_chars, Option.pure_def]

theorem commentRole?_text (name : QuotedName) (comment : CommentText) :
    commentRole? ("COMMENT ON ROLE ".toList ++ (name.text ++ comment.text)) =
      some (.commentRole name.name comment.content) := by
  simp only [commentRole?, Option.bind_eq_bind, Option.bind_some, literal?_append, name.name?_text,
    comment.commentText?_text, Option.pure_def]

theorem createSchema?_text (name : QuotedName) (owner : Option OwnerText) (pad : Pad) :
    createSchema? ("CREATE SCHEMA ".toList ++
        (name.text ++ ((owner.map (·.text)).getD [] ++ pad.chars))) =
      some (.createSchema name.name (owner.map (·.name.name))) := by
  cases owner with
  | none =>
    simp only [createSchema?, Option.bind_eq_bind, Option.bind_some, literal?_append,
      name.name?_text, Option.map_none, Option.getD_none, List.nil_append, pad.blank, if_true,
      Option.pure_def]
  | some owner =>
    simp only [createSchema?, Option.bind_eq_bind, Option.bind_some, literal?_append,
      name.name?_text, Option.map_some, Option.getD_some, owner.text_append,
      owner.before.allBlank_word (w := "AUTHORIZATION") rfl, 
      owner.before.blanks?_word (w := "AUTHORIZATION") rfl,
      owner.behind.blanks?_append (owner.name.trimLeft_text _), owner.name.name?_text,
      pad.finish?_chars, Bool.false_eq_true, if_false, Option.pure_def]

theorem createSequence?_text (name : QualifiedName) (type : Option AsText) (pad : Pad) :
    createSequence? ("CREATE SEQUENCE ".toList ++
        (name.text ++ ((type.map (·.text)).getD [] ++ pad.chars))) =
      some (.createSequence name.schema.name name.name.name) := by
  cases type with
  | none =>
    simp only [createSequence?, Option.bind_eq_bind, Option.bind_some, literal?_append,
      name.qualified?_text, Option.map_none, Option.getD_none, List.nil_append, pad.blank, if_true,
      Option.pure_def]
  | some type =>
    simp only [createSequence?, Option.bind_eq_bind, Option.bind_some, literal?_append,
      name.qualified?_text, Option.map_some, Option.getD_some, type.text_append,
      type.before.allBlank_word (w := "AS") rfl, type.before.blanks?_word (w := "AS") rfl,
      type.behind.blanks?_append (type.type.trimLeft_text _), type.type.sequenceType?_text,
      pad.finish?_chars, Bool.false_eq_true, if_false, Option.pure_def]

theorem restartSequence?_text (name : QualifiedName) (restart : RestartText) :
    restartSequence? ("ALTER SEQUENCE ".toList ++ (name.text ++ restart.text)) =
      some (.restartSequence name.schema.name name.name.name restart.value) := by
  simp only [restartSequence?, Option.bind_eq_bind, Option.bind_some, literal?_append,
    name.qualified?_text, restart.restartValue?_text, Option.pure_def]

theorem createTable?_text (name : QualifiedName) (gap pad : Pad) :
    createTable? ("CREATE TABLE ".toList ++ (name.text ++ (gap.chars ++ ("(".toList ++
        pad.chars)))) =
      some (.createTable name.schema.name name.name.name) := by
  simp only [createTable?, Option.bind_eq_bind, Option.bind_some, literal?_append,
    name.qualified?_text, gap.trimLeft_word (w := "(") rfl, pad.finish?_chars, Option.pure_def]

theorem alterTable?_text (name : QualifiedName) (pad : Pad) :
    alterTable? ("ALTER TABLE ".toList ++ (name.text ++ pad.chars)) =
      some (.alterTable name.schema.name name.name.name) := by
  simp only [alterTable?, Option.bind_eq_bind, Option.bind_some, literal?_append,
    name.qualified?_text, pad.finish?_chars, Option.pure_def]

section

variable (owner : QualifiedName) (gap : Gap) (column : QuotedName) (restart : RestartText)

theorem restartIdentity?_text :
    restartIdentity? ("ALTER TABLE ".toList ++ (owner.text ++ (gap.chars ++
        ("ALTER COLUMN ".toList ++ (column.text ++ restart.text))))) =
      some (.restartIdentity owner.schema.name owner.name.name column.name restart.value) := by
  simp only [restartIdentity?, Option.bind_eq_bind, Option.bind_some, literal?_append,
    owner.qualified?_text, gap.blanks?_word (w := "ALTER COLUMN ") rfl, column.name?_text,
    restart.restartValue?_text, Option.pure_def]

/-- The line of a changed table ends behind the name. -/
theorem alterTable?_restartIdentity :
    alterTable? ("ALTER TABLE ".toList ++ (owner.text ++ (gap.chars ++
      ("ALTER COLUMN ".toList ++ (column.text ++ restart.text))))) = none := by
  simp only [alterTable?, Option.bind_eq_bind, Option.bind_some, literal?_append,
    owner.qualified?_text, finish?, gap.allBlank_word (w := "ALTER COLUMN ") rfl,
    Bool.false_eq_true, if_false, Option.bind_none]

end

theorem createIndex?_text (unique : Bool) (name : QualifiedName) (before behind : Gap)
    (owner : QualifiedName) (pad : Pad) :
    createIndex? (indexWords unique ++ (name.text ++ (before.chars ++ ("ON".toList ++
        (behind.chars ++ (owner.text ++ pad.chars)))))) =
      some (.createIndex unique name.schema.name name.name.name owner.schema.name
        owner.name.name) := by
  have hwords (rest : List Char) : ∃ cs, literal? "CREATE " (indexWords unique ++ rest) = some cs ∧
      (literal? "UNIQUE " cs).isSome = unique ∧
      literal? "INDEX " ((literal? "UNIQUE " cs).getD cs) = some rest := by
    cases unique <;> exact ⟨_, rfl, rfl, rfl⟩
  obtain ⟨cs, hcreate, hunique, hindex⟩ := hwords (name.text ++ (before.chars ++ ("ON".toList ++
    (behind.chars ++ (owner.text ++ pad.chars)))))
  simp only [createIndex?, hcreate, hindex, hunique, Option.bind_eq_bind, Option.bind_some,
    literal?_append, name.qualified?_text, before.blanks?_word (w := "ON") rfl,
    behind.blanks?_append (owner.trimLeft_text _), owner.qualified?_text, pad.finish?_chars,
    Option.pure_def]

theorem commentColumn?_text (owner : QualifiedName) (column : QuotedName) (comment : CommentText) :
    commentColumn? ("COMMENT ON COLUMN ".toList ++ (owner.text ++ (".".toList ++
        (column.text ++ comment.text)))) =
      some (.commentColumn owner.schema.name owner.name.name column.name comment.content) := by
  simp only [commentColumn?, Option.bind_eq_bind, Option.bind_some, literal?_append,
    owner.qualified?_text, column.name?_text, comment.commentText?_text, Option.pure_def]

theorem commentTable?_text (name : QualifiedName) (comment : CommentText) :
    commentTable? ("COMMENT ON TABLE ".toList ++ (name.text ++ comment.text)) =
      some (.commentTable name.schema.name name.name.name comment.content) := by
  simp only [commentTable?, Option.bind_eq_bind, Option.bind_some, literal?_append,
    name.qualified?_text, comment.commentText?_text, Option.pure_def]

theorem createDomain?_text (name : QualifiedName) (before behind : Gap) (inner : Pad)
    (base : BaseText) :
    createDomain? ("CREATE DISTINCT TYPE ".toList ++ (name.text ++ (before.chars ++ ("AS".toList ++
        (behind.chars ++ ("\"SYSIBM".toList ++ (inner.chars ++ ("\".".toList ++ base.text)))))))) =
      some (.createDomain name.schema.name name.name.name base.base) := by
  simp only [createDomain?, Option.bind_eq_bind, Option.bind_some, literal?_append,
    name.qualified?_text, before.blanks?_word (w := "AS") rfl,
    behind.blanks?_word (w := "\"SYSIBM") rfl, inner.trimLeft_word (w := "\".") rfl,
    base.shortestNonempty?_text, Option.pure_def]

theorem setSchema?_text (before behind : Pad) (schema : QuotedName) (pad : Pad) :
    setSchema? ("SET CURRENT SCHEMA".toList ++ (before.chars ++ ("=".toList ++ (behind.chars ++
        (schema.text ++ pad.chars))))) =
      some (.setSchema schema.name) := by
  have hopen : schema.text ++ pad.chars = "\"".toList ++ (schema.inside ++ '"' :: pad.chars) := by
    simp [QuotedName.text, inQuotes]
  simp only [setSchema?, Option.bind_eq_bind, Option.bind_some, literal?_append,
    before.trimLeft_word (w := "=") rfl, behind.trimLeft_append (schema.trimLeft_text _)]
  simp only [hopen, Scan.optional, literal?_append, Option.getD_some,
    dropWhile_ne_append schema.doubleQuoteFree, takeWhile_ne_append schema.doubleQuoteFree,
    List.tail_cons, pad.finish?_chars, Option.bind_some, Option.pure_def]
  rfl

theorem setPath?_text (before behind : Pad) (path : PathText) (pad : Pad) :
    setPath? ("SET CURRENT PATH".toList ++ (before.chars ++ ("=".toList ++ (behind.chars ++
        (path.chars ++ pad.chars))))) =
      some (.setPath (.ofList path.chars)) := by
  have hvisible : allBlank (behind.chars ++ (path.chars ++ pad.chars)) = false := by
    rw [← List.append_assoc]
    exact allBlank_eq_false (endsVisible_append _ path.ends) _
  have htrim : trim (behind.chars ++ (path.chars ++ pad.chars)) = path.chars := by
    rw [trim, behind.trimLeft_append (trimLeft_of_startsVisible path.starts _),
      trimRight_append path.ends pad.blank]
  have hfeed : path.chars.contains '\n' = false := by simpa using path.oneLine
  simp only [setPath?, Option.bind_eq_bind, Option.bind_some, literal?_append,
    before.trimLeft_word (w := "=") rfl, hvisible, htrim, hfeed, Bool.false_eq_true, if_false,
    Option.pure_def]

theorem commentTrigger?_text (schema : QuotedName) (gap : Pad) (name : QuotedName)
    (comment : CommentText) :
    commentTrigger? ("COMMENT ON TRIGGER ".toList ++ (schema.text ++ (gap.chars ++ (".".toList ++
        (name.text ++ comment.text))))) =
      some (.commentTrigger schema.name name.name comment.content) := by
  simp only [commentTrigger?, Option.bind_eq_bind, Option.bind_some, literal?_append,
    schema.name?_text, gap.trimLeft_word (w := ".") rfl, name.name?_text,
    comment.commentText?_text, Option.pure_def]

/-- A line has the form that the recognizer at a place finds on it, if what the line starts with
keeps the recognizers before it from finding any. -/
theorem ofLine?_behind (n : Nat) {recognize : List Char → Option Form}
    {others : List (List Char → Option Form)} (hn : recognizers.drop n = recognize :: others)
    {words : List Char} (hwords : startsVisible words = true)
    (hbefore : ∀ rest, (recognizers.take n).findSome?
      (fun recognize => recognize (words ++ rest)) = none)
    {rest : List Char} {form : Form} (h : recognize (words ++ rest) = some form) :
    Form.ofLine? (words ++ rest) = some form :=
  ofLine?_eq_some hn (trimLeft_of_startsVisible hwords rest) (hbefore rest) h

theorem startsVisible_tablespace : ∀ words ∈ tablespaceStarts,
    startsVisible words.toList = true := by decide

theorem ignored_tablespace : ∀ words ∈ tablespaceStarts, ∀ rest,
    (recognizers.take 1).findSome? (fun recognize => recognize (words.toList ++ rest)) = none := by
  simp only [tablespaceStarts, List.forall_mem_cons, List.not_mem_nil, false_imp_iff,
    implies_true, and_true]
  exact ⟨fun _ => rfl, fun _ => rfl, fun _ => rfl, fun _ => rfl, fun _ => rfl, fun _ => rfl⟩

/-- A changed table and a changed identity start with the same words. -/
theorem before_restartIdentity (owner : QualifiedName) (gap : Gap) (column : QuotedName)
    (restart : RestartText) :
    (recognizers.take 9).findSome? (fun recognize => recognize ("ALTER TABLE ".toList ++
      (owner.text ++ (gap.chars ++ ("ALTER COLUMN ".toList ++
        (column.text ++ restart.text)))))) = none := by
  have hwords (rest : List Char) : (recognizers.take 8).findSome?
      (fun recognize => recognize ("ALTER TABLE ".toList ++ rest)) = none := rfl
  have htake : recognizers.take 9 = recognizers.take 8 ++ [alterTable?] := rfl
  rw [htake, List.findSome?_append, hwords, Option.none_or, List.findSome?_cons,
    alterTable?_restartIdentity]
  rfl

theorem ofLine?_text (t : FirstLineText k) : Form.ofLine? t.text = some t.form := by
  cases t with
  | createTablespace words known name rest =>
    exact ofLine?_behind 1 rfl (startsVisible_tablespace words known)
      (ignored_tablespace words known) (createTablespace?_text known name rest)
  | createRole name pad => exact ofLine?_behind 2 rfl rfl (fun _ => rfl) (createRole?_text name pad)
  | commentRole name comment =>
    exact ofLine?_behind 3 rfl rfl (fun _ => rfl) (commentRole?_text name comment)
  | createSchema name owner pad =>
    exact ofLine?_behind 4 rfl rfl (fun _ => rfl) (createSchema?_text name owner pad)
  | createSequence name type pad =>
    exact ofLine?_behind 5 rfl rfl (fun _ => rfl) (createSequence?_text name type pad)
  | restartSequence name restart =>
    exact ofLine?_behind 6 rfl rfl (fun _ => rfl) (restartSequence?_text name restart)
  | createTable name gap pad =>
    exact ofLine?_behind 7 rfl rfl (fun _ => rfl) (createTable?_text name gap pad)
  | alterTable name pad =>
    exact ofLine?_behind 8 rfl rfl (fun _ => rfl) (alterTable?_text name pad)
  | restartIdentity owner gap column restart =>
    exact ofLine?_eq_some (n := 9) rfl rfl (before_restartIdentity owner gap column restart)
      (restartIdentity?_text owner gap column restart)
  | createIndex unique name before behind owner pad =>
    exact ofLine?_behind 11 rfl (by cases unique <;> rfl) (fun _ => by cases unique <;> rfl)
      (createIndex?_text unique name before behind owner pad)
  | commentColumn owner column comment =>
    exact ofLine?_behind 12 rfl rfl (fun _ => rfl) (commentColumn?_text owner column comment)
  | commentTable name comment =>
    exact ofLine?_behind 13 rfl rfl (fun _ => rfl) (commentTable?_text name comment)
  | createDomain name before behind inner base =>
    exact ofLine?_behind 14 rfl rfl (fun _ => rfl)
      (createDomain?_text name before behind inner base)
  | setSchema before behind schema pad =>
    exact ofLine?_behind 15 rfl rfl (fun _ => rfl) (setSchema?_text before behind schema pad)
  | setPath before behind path pad =>
    exact ofLine?_behind 16 rfl rfl (fun _ => rfl) (setPath?_text before behind path pad)
  | commentTrigger schema gap name comment =>
    exact ofLine?_behind 19 rfl rfl (fun _ => rfl) (commentTrigger?_text schema gap name comment)
  | typed object statement => exact statement.ofLine?_text

end FirstLineText

/-- A line is classified as it was written, whatever blanks are before it. -/
theorem firstLine_classified {k : Kind} (lead : Pad) (t : FirstLineText k) :
    Form.ofLine? (lead.chars ++ t.text) = some t.form ∧ t.form.kind = k := by
  constructor
  · rw [ofLine?_congr (trimLeft_append lead.blank t.text), t.ofLine?_text]
  · cases t with
    | typed object => cases object <;> rfl
    | _ => rfl

/-- The words of other statements are part of the names here. -/
example : Form.ofLine?
    " ALTER TABLE \"IS\".\"ON  PCTFREE 10 \" ALTER COLUMN \" AS (\" RESTART WITH -5".toList =
      some (.restartIdentity "IS" "ON  PCTFREE 10" " AS (" "-5".toList) := by
  decide +kernel

end SchemaTransfer.Dump
