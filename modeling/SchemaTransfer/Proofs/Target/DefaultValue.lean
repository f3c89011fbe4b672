import SchemaTransfer.Proofs.Dump.TypeText
import SchemaTransfer.Target.DefaultValue

/-!
# Implicit default values of the types of a dump

What a column type may be and which types have an implicit default value is decided by two lists of
words. The second goes by the front of a type, in whatever case, and what stands behind the keyword
of a type never carries such a front on. So it is enough to compare the lists keyword by keyword:
three keywords are without a value.
-/
namespace SchemaTransfer
open Unicode Scan Dump ColumnLine

theorem Dump.breaksOff_of_isTypeTail {tail : List Char} (h : isTypeTail tail = true) :
    BreaksOff tail := by
  intro c hc
  obtain ⟨cs, rfl⟩ : ∃ cs, tail = c :: cs := by
    cases tail with
    | nil => cases hc
    | cons d cs => exact ⟨cs, by rw [Option.some.inj hc]⟩
  by_contra hnot
  obtain ⟨hblank, hopen⟩ := not_or.1 hnot
  rw [Bool.not_eq_true] at hblank
  have hargument : argument? (c :: cs) = none := by
    rw [argument?, trimLeft_cons hblank, literal?_cons_of_ne rfl (Ne.symm hopen)]
    rfl
  simp [isTypeTail, Scan.optional, hargument, areOptions, blanks?, hblank] at h

theorem keywordChars?_append {ws front tail : List Char}
    (h : front.map Casing.fold <+: ws →
      ∀ c ∈ tail.head?, ws[front.length]? ≠ some (Casing.fold c)) :
    keywordChars? ws (front ++ tail) = (keywordChars? ws front).map (· ++ tail) := by
  induction ws generalizing front with
  | nil => simp [keywordChars?]
  | cons w ws ih =>
    cases front with
    | nil =>
      cases tail with
      | nil => rfl
      | cons c tail =>
        have hc := h List.nil_prefix c rfl
        have hne : Casing.fold c ≠ w := by simpa [eq_comm] using hc
        simp [keywordChars?, hne]
    | cons d front =>
      by_cases hd : Casing.fold d = w
      · subst hd
        simp only [List.cons_append, keywordChars?, beq_self_eq_true, if_true]
        apply ih
        intro hprefix
        simpa using h (List.cons_prefix_cons.2 ⟨rfl, hprefix⟩)
      · simp [keywordChars?, hd]

namespace DefaultValue

/-- All starts of types that have an implicit default value. -/
def starts : List String := numeric ++ character ++ ["date", "timestamp", "time"]

/-- A keyword that is the beginning of a start is followed by a letter there. -/
theorem starts_goOn : ∀ w ∈ typeKeywords, ∀ low ∈ starts,
    (w.toList.map Casing.fold).isPrefixOf low.toList = true →
      (low.toList[w.toList.length]?.all isWord) = true := by
  decide +kernel

variable {w low : String} {tail cs : List Char}

theorem keyword?_append (hw : w ∈ typeKeywords) (hlow : low ∈ starts) (htail : BreaksOff tail) :
    keyword? low (w.toList ++ tail) = (keyword? low w.toList).map (· ++ tail) := by
  apply keywordChars?_append
  intro hprefix c hc heq
  have hword := starts_goOn w hw low hlow (List.isPrefixOf_iff_prefix.2 hprefix)
  rw [heq] at hword
  simp [(htail.isWord hc).2] at hword

theorem startsWithAny_append (hw : w ∈ typeKeywords) (htail : BreaksOff tail)
    {keywords : List String} (h : ∀ low ∈ keywords, low ∈ starts) :
    startsWithAny keywords (w.toList ++ tail) = startsWithAny keywords w.toList := by
  unfold startsWithAny
  rw [Bool.eq_iff_iff, List.any_eq_true, List.any_eq_true]
  refine exists_congr fun low => and_congr_right fun hlow => ?_
  rw [keyword?_append hw (h low hlow) htail, Option.isSome_map]

theorem isKeyword_append (hw : w ∈ typeKeywords) (htail : BreaksOff tail) (hlow : low ∈ starts) :
    isKeyword low (w.toList ++ tail) = isKeyword low w.toList := by
  unfold isKeyword
  rw [keyword?_append hw hlow htail]
  cases keyword? low w.toList with
  | none => rfl
  | some rest => exact htail.wordEnds_append rest

/-- An argument and options have no say in the implicit default value. -/
theorem implicit?_append (hw : w ∈ typeKeywords) (htail : BreaksOff tail) :
    implicit? (.ofList (w.toList ++ tail)) = implicit? w := by
  unfold implicit?
  simp only [String.toList_ofList]
  rw [startsWithAny_append hw htail (by simp +contextual [starts]),
    startsWithAny_append hw htail (by simp +contextual [starts]),
    isKeyword_append hw htail (by simp [starts]), isKeyword_append hw htail (by simp [starts]),
    isKeyword_append hw htail (by simp [starts])]

def numericKeywords : List String :=
  ["SMALLINT", "INTEGER", "INT", "BIGINT", "DECIMAL", "DEC", "NUMERIC", "REAL", "DOUBLE", "FLOAT",
   "DECFLOAT"]

def characterKeywords : List String :=
  ["CHARACTER", "CHAR", "VARCHAR", "LONG VARCHAR", "CLOB", "GRAPHIC", "VARGRAPHIC",
   "LONG VARGRAPHIC", "DBCLOB", "BINARY", "VARBINARY", "BLOB"]

/-- The keywords of the types without an implicit default value. -/
def bareKeywords : List String := ["NUM", "BOOLEAN", "XML"]

/-- The implicit default value of the types of a keyword. -/
def ofKeyword? (keyword : String) : Option String :=
  if keyword ∈ numericKeywords then some "0"
  else if keyword ∈ characterKeywords then some "''"
  else match keyword with
    | "DATE" => some "current_date"
    | "TIMESTAMP" => some "current_timestamp"
    | "TIME" => some "current_time"
    | _ => none

theorem implicit?_keyword : ∀ w ∈ typeKeywords, implicit? w = ofKeyword? w := by decide +kernel

theorem ofKeyword?_eq_none : ∀ w ∈ typeKeywords, ofKeyword? w = none ↔ w ∈ bareKeywords := by
  decide +kernel

/-- Whether a type is written with a keyword. -/
def hasKeyword (keyword : String) (cs : List Char) : Bool :=
  ((literal? keyword cs).map isTypeTail).getD false

theorem hasKeyword_iff :
    hasKeyword w cs = true ↔ ∃ tail, isTypeTail tail = true ∧ cs = w.toList ++ tail := by
  unfold hasKeyword
  constructor
  · intro h
    cases hliteral : literal? w cs with
    | none => simp [hliteral] at h
    | some tail =>
      refine ⟨tail, by simpa [hliteral] using h, ?_⟩
      exact (literal?_eq_some.1 hliteral).symm
  · rintro ⟨tail, htail, rfl⟩
    simp [literal?_append, htail]

theorem isType_iff : isType cs = true ↔
    isDistinctType cs = true ∨ ∃ w ∈ typeKeywords, hasKeyword w cs = true := by
  simp [isType, hasKeyword]

/-- The implicit default value of a built-in type, with any argument and options. -/
theorem implicit?_of_hasKeyword (hw : w ∈ typeKeywords) (h : hasKeyword w cs = true) :
    implicit? (.ofList cs) = ofKeyword? w := by
  obtain ⟨tail, htail, rfl⟩ := hasKeyword_iff.1 h
  rw [implicit?_append hw (breaksOff_of_isTypeTail htail), implicit?_keyword w hw]

theorem implicit?_of_isDistinctType (h : isDistinctType cs = true) :
    implicit? (.ofList cs) = none := by
  obtain ⟨rest, rfl⟩ : ∃ rest, cs = '"' :: rest := by
    cases cs with
    | nil => cases h
    | cons c rest =>
      by_cases hc : c = '"'
      · exact ⟨rest, by rw [hc]⟩
      · simp [isDistinctType, quotedText?, hc] at h
  have hdiffer : ∀ low ∈ starts, differ low.toList (['"'].map Casing.fold) = true := by
    decide +kernel
  have hnone : ∀ low ∈ starts, keyword? low ('"' :: rest) = none := fun low hlow =>
    keywordChars?_of_differ (hdiffer low hlow) rest
  have hany {keywords : List String} (hk : ∀ low ∈ keywords, low ∈ starts) :
      startsWithAny keywords ('"' :: rest) = false :=
    List.any_eq_false.2 fun low hlow => by simp [hnone low (hk low hlow)]
  unfold implicit? isKeyword
  simp only [String.toList_ofList]
  rw [hany (by simp +contextual [starts]), hany (by simp +contextual [starts]),
    hnone "date" (by simp [starts]), hnone "timestamp" (by simp [starts]),
    hnone "time" (by simp [starts])]
  simp

/-- Of the types of a dump, those of three keywords and the distinct types have no implicit default
value. -/
theorem implicit?_eq_none_iff (h : isType cs = true) : implicit? (.ofList cs) = none ↔
    isDistinctType cs = true ∨ ∃ w ∈ bareKeywords, hasKeyword w cs = true := by
  have hknown : ∀ w ∈ bareKeywords, w ∈ typeKeywords := by decide
  constructor
  · intro hnone
    rcases isType_iff.1 h with hdistinct | ⟨w, hw, hkeyword⟩
    · exact .inl hdistinct
    · rw [implicit?_of_hasKeyword hw hkeyword, ofKeyword?_eq_none w hw] at hnone
      exact .inr ⟨w, hnone, hkeyword⟩
  · rintro (hdistinct | ⟨w, hw, hkeyword⟩)
    · exact implicit?_of_isDistinctType hdistinct
    · rw [implicit?_of_hasKeyword (hknown w hw) hkeyword]
      exact (ofKeyword?_eq_none w (hknown w hw)).2 hw

end DefaultValue

end SchemaTransfer
