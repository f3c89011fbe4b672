import SchemaTransfer.Proofs.Replace
import SchemaTransfer.Target.Expression

/-!
# Literals in adapted expressions

The six rules apply outside literals, put in no quote and never leave an empty text, so all literals
come through them. Dropping `WITH ROW MOVEMENT` applies to the whole text: it changes a literal that
holds the clause, and makes one of two literals with nothing but such clauses between them.
-/
namespace SchemaTransfer.Expression
open Unicode Scan Segment

/-- The characters that a `WITH ROW MOVEMENT` clause can be made of. -/
def isClauseChar (c : Char) : Bool :=
  isBlank c || "withnorowmovement".toList.contains (Casing.fold c)

/-- The first letters of the texts that are replaced. -/
def startLetters : List Char := ['c', 'y', 'u', 'l']

theorem isClauseChar_eq_false {c : Char} (h : startLetters.contains (Casing.fold c)) :
    isClauseChar c = false := by
  have hblank : isBlank c = false :=
    eq_false_of_isBlank (p := fun c => startLetters.contains (Casing.fold c)) (by decide +kernel) h
  have hletters : startLetters.all (fun d => !"withnorowmovement".toList.contains d) = true := by
    decide
  have hletter := List.all_eq_true.1 hletters _ (List.contains_iff_mem.1 h)
  rw [Bool.not_eq_true'] at hletter
  rw [isClauseChar, hblank, Bool.false_or, hletter]

theorem exists_foreign {cs : List Char} (h : cs.all isClauseChar = false) :
    ∃ c ∈ cs, isClauseChar c = false := by
  simpa [List.all_eq_false] using h

/-- What the rules have in common. -/
structure Rule.Sound (r : Rule) : Prop where
  stops (e : List Char) : StopsAt r.pattern ('\'' :: e)
  nil : r.pattern [] = none
  free : '\'' ∉ r.new.toList
  /-- The new text cannot be part of a `WITH ROW MOVEMENT` clause. -/
  foreign : ∃ c ∈ r.new.toList, isClauseChar c = false
  /-- Nor can the first letter of the old text. -/
  start {c : Char} (h : isClauseChar c = true) (cs : List Char) : r.pattern (c :: cs) = none

theorem keyword?_of_isClauseChar {w : String} (hw : w.toList.head?.any startLetters.contains = true)
    {c : Char} (h : isClauseChar c = true) (cs : List Char) : keyword? w (c :: cs) = none := by
  unfold keyword?
  cases hws : w.toList with
  | nil => rw [hws] at hw; cases hw
  | cons d ws =>
    rw [hws, List.head?_cons, Option.any_some] at hw
    rw [keywordChars?, if_neg]
    intro hfold
    rw [← beq_iff_eq.1 hfold] at hw
    rw [isClauseChar_eq_false hw] at h
    cases h

theorem keyword?_nil {w : String} (hw : w.toList.head?.any startLetters.contains = true) :
    keyword? w [] = none := by
  unfold keyword?
  cases hws : w.toList with
  | nil => rw [hws] at hw; cases hw
  | cons d ws => rfl

theorem sound_twoWords {first second new : String} (hfirst : '\'' ∉ first.toList)
    (hsecond : '\'' ∉ second.toList)
    (hstart : first.toList.head?.any startLetters.contains = true) (hfree : '\'' ∉ new.toList)
    (hforeign : new.toList.all isClauseChar = false) :
    Rule.Sound ⟨twoWords first second, new⟩ where
  stops e :=
    (stopsAt_keyword? hfirst).bind ((stopsAt_blanks? (by decide)).bind
      ((stopsAt_keyword? hsecond).bind (stopsAt_wordEnds (by decide))))
  nil := by simp [twoWords, keyword?_nil hstart]
  free := hfree
  foreign := exists_foreign hforeign
  start h cs := by
    show (keyword? first (_ :: cs)).bind _ = none
    rw [keyword?_of_isClauseChar hstart h]
    rfl

theorem sound_call {name new : String} (hname : '\'' ∉ name.toList)
    (hstart : name.toList.head?.any startLetters.contains = true) (hfree : '\'' ∉ new.toList)
    (hforeign : new.toList.all isClauseChar = false) :
    Rule.Sound ⟨call name, new⟩ where
  stops e := by
    refine (stopsAt_keyword? hname).bind fun cs => ?_
    rw [trimLeft_append_cons (by decide), stopsAt_literal? (by decide)]
  nil := by simp [call, keyword?_nil hstart]
  free := hfree
  foreign := exists_foreign hforeign
  start h cs := by
    show (keyword? name (_ :: cs)).bind _ = none
    rw [keyword?_of_isClauseChar hstart h]
    rfl

theorem sound_of_mem {r : Rule} (h : r ∈ rules) : r.Sound := by
  simp only [rules, List.mem_cons, List.not_mem_nil, or_false] at h
  rcases h with rfl | rfl | rfl | rfl | rfl | rfl
  · exact sound_twoWords (by decide) (by decide) (by decide) (by decide) (by decide)
  · exact sound_twoWords (by decide) (by decide) (by decide) (by decide) (by decide)
  all_goals exact sound_call (by decide) (by decide) (by decide) (by decide)

namespace Rule.Sound

variable {r : Rule}

theorem keepsQuotes (h : r.Sound) : KeepsQuotes r.apply :=
  Replace.keepsQuotes_allFrom h.stops h.nil h.free

theorem apply_eq_nil (h : r.Sound) {text : List Char} (hnil : r.apply text = []) : text = [] := by
  rcases Replace.allFrom_eq_or r.pattern true r.new.toList false text with hsame | hnew
  · exact hsame.symm.trans hnil
  · obtain ⟨c, hc, -⟩ := h.foreign
    have hmem : c ∈ r.apply text := hnew c hc
    rw [hnil] at hmem
    cases hmem

end Rule.Sound

/-- Drops the clauses from a text. -/
def withoutRowMovement (cs : List Char) : List Char := Replace.all rowMovement "" cs

theorem stopsAt_rowMovement (e : List Char) : StopsAt rowMovement ('\'' :: e) := by
  have hblanks : StopsAt blanks? ('\'' :: e) := stopsAt_blanks? (by decide)
  have hno : StopsAt (fun cs => (keyword? "no" cs).bind blanks?) ('\'' :: e) :=
    (stopsAt_keyword? (by decide)).bind hblanks
  have hrest := (stopsAt_keyword? (w := "row") (c := '\'') (e := e) (by decide)).bind
    (hblanks.bind ((stopsAt_keyword? (w := "movement") (by decide)).bind
      (stopsAt_wordEnds (by decide))))
  have hwith : StopsAt (fun cs => (keyword? "with" cs).bind fun cs => (blanks? cs).bind fun cs =>
      (keyword? "row" (optional (fun cs => (keyword? "no" cs).bind blanks?) cs)).bind fun cs =>
        (blanks? cs).bind fun cs => (keyword? "movement" cs).bind
          fun cs => if wordEnds cs then some cs else none) ('\'' :: e) := by
    refine (stopsAt_keyword? (by decide)).bind (hblanks.bind fun cs => ?_)
    rw [hno.optional]
    exact hrest _
  intro cs
  unfold rowMovement
  rw [trimLeft_append_cons (by decide)]
  exact hwith _

theorem keepsQuotes_withoutRowMovement : KeepsQuotes withoutRowMovement :=
  Replace.keepsQuotes_allFrom stopsAt_rowMovement (by decide) (by decide)

theorem isClauseChar_of_isBlank {c : Char} (h : isBlank c = true) : isClauseChar c = true := by
  rw [isClauseChar, h, Bool.true_or]

theorem passes_word {w : String} (hw : w.toList ⊆ "withnorowmovement".toList) {cs rest : List Char}
    (h : keyword? w cs = some rest) : Passes (isClauseChar · = true) cs rest :=
  (passes_keyword? h).mono fun c hc => by
    rw [isClauseChar, List.contains_iff_mem.2 (hw hc), Bool.or_true]

theorem passes_rowMovement {cs rest : List Char} (h : rowMovement cs = some rest) :
    Passes (isClauseChar · = true) cs rest ∧ rest.length < cs.length := by
  simp only [rowMovement, Option.bind_eq_bind, Option.bind_eq_some_iff] at h
  obtain ⟨cs₁, hwith, cs₂, hblanks, cs₃, hrow, cs₄, hblanks', cs₅, hmovement, hend⟩ := h
  obtain rfl : cs₅ = rest := by
    split at hend
    · exact Option.some.inj hend
    · cases hend
  have hpad : ∀ {cs rest}, blanks? cs = some rest → Passes (isClauseChar · = true) cs rest :=
    fun h => (passes_blanks? h).mono fun _ => isClauseChar_of_isBlank
  have hno : Passes (isClauseChar · = true) cs₂
      (optional (fun cs => (keyword? "no" cs).bind blanks?) cs₂) :=
    passes_optional fun hno => by
      obtain ⟨mid, hmid, hrest⟩ := Option.bind_eq_some_iff.1 hno
      exact (passes_word (by decide) hmid).trans (hpad hrest)
  have hlater : Passes (isClauseChar · = true) cs₁ cs₅ :=
    (hpad hblanks).trans (hno.trans ((passes_word (by decide) hrow).trans
      ((hpad hblanks').trans (passes_word (by decide) hmovement))))
  refine ⟨((passes_trimLeft cs).mono fun _ => isClauseChar_of_isBlank).trans
    ((passes_word (by decide) hwith).trans hlater), ?_⟩
  obtain ⟨used, htrim, hused⟩ := keyword?_eq_some hwith
  obtain ⟨later, rfl, -⟩ := hlater
  have hlength := congrArg List.length hused
  rw [List.length_map] at hlength
  have hle := (trimLeft_isSuffix cs).length_le
  rw [htrim, List.length_append, List.length_append, hlength] at hle
  refine Nat.lt_of_lt_of_le ?_ hle
  show _ < 4 + _
  omega

theorem isClauseChar_of_withoutRowMovement {text : List Char} (h : withoutRowMovement text = []) :
    ∀ c ∈ text, isClauseChar c = true :=
  Replace.forall_of_allFrom_eq_nil passes_rowMovement h

/-- The rules neither make a text of clauses nor change one. -/
theorem Rule.Sound.withoutRowMovement_apply {r : Rule} (h : r.Sound) (text : List Char) :
    withoutRowMovement (r.apply text) = [] ↔ withoutRowMovement text = [] := by
  constructor
  · intro hnil
    have hchars := isClauseChar_of_withoutRowMovement hnil
    rcases Replace.allFrom_eq_or r.pattern true r.new.toList false text with hsame | hnew
    · rwa [Rule.apply, Replace.words, hsame] at hnil
    · obtain ⟨c, hc, hforeign⟩ := h.foreign
      cases hforeign.symm.trans (hchars c (hnew c hc))
  · intro hnil
    have hchars := isClauseChar_of_withoutRowMovement hnil
    have hsame : r.apply text = text := Replace.allFrom_of_none fun c rest hrest =>
      h.start (hchars c (hrest.mem List.mem_cons_self)) rest
    rwa [hsame]

theorem onOneLine_of_not_mem {cs : List Char} (h : '\n' ∉ cs) : onOneLine cs = cs := by
  fun_induction onOneLine cs with
  | case1 => rfl
  | case2 cs ih => simp at h
  | case3 cs ih => simp at h
  | case4 c cs _ _ ih => rw [ih (List.not_mem_of_not_mem_cons h)]

/-- Something other than clauses stands between any two literals. -/
def KeepsApart (cs : List Char) : Prop :=
  ∀ text ∈ between (split cs), withoutRowMovement text ≠ []

theorem Rule.Sound.keepsApart {r : Rule} (h : r.Sound) (cs : List Char) :
    KeepsApart (outsideLiterals r.apply cs) ↔ KeepsApart cs := by
  unfold KeepsApart
  rw [split_outsideLiterals h.keepsQuotes (fun _ => h.apply_eq_nil), mapOutside_eq, between_map,
    List.forall_mem_map]
  simp only [ne_eq, h.withoutRowMovement_apply]

theorem literals_applyRules (cs : List Char) :
    literals (applyRules cs) = literals cs ∧ (KeepsApart (applyRules cs) ↔ KeepsApart cs) := by
  have hrules : ∀ r ∈ rules, r.Sound := fun _ => sound_of_mem
  unfold applyRules
  generalize rules = rs at hrules
  induction rs generalizing cs with
  | nil => exact ⟨rfl, Iff.rfl⟩
  | cons r rs ih =>
    obtain ⟨hr, hrs⟩ := List.forall_mem_cons.1 hrules
    obtain ⟨hliterals, hgaps⟩ := ih (outsideLiterals r.apply cs) hrs
    exact ⟨hliterals.trans (literals_outsideLiterals hr.keepsQuotes (fun _ => hr.apply_eq_nil) cs),
      hgaps.trans (hr.keepsApart cs)⟩

theorem toList_adaptExpression {s : String} (hline : '\n' ∉ s.toList)
    (hbinary : occurs emptyBinary s.toList = false) :
    (adaptExpression s).toList = withoutRowMovement (applyRules s.toList) := by
  rw [adaptExpression, String.toList_ofList, adapt, hbinary, if_neg Bool.false_ne_true,
    onOneLine_of_not_mem hline, withoutRowMovement]

/-- All literals of an expression of one line come through the rules. Dropping `WITH ROW MOVEMENT`
then leaves them as they are exactly if none holds the clause and there is something other than
clauses between any two; where there is, each literal loses the clauses it holds, and otherwise
some of them become one. -/
theorem literals_adaptExpression {s : String} (hline : '\n' ∉ s.toList)
    (hbinary : occurs emptyBinary s.toList = false) :
    literals (applyRules s.toList) = literals s.toList ∧
    (literals (adaptExpression s).toList = literals s.toList ↔
      (∀ body ∈ literals s.toList, withoutRowMovement body = body) ∧ KeepsApart s.toList) ∧
    (KeepsApart s.toList →
      literals (adaptExpression s).toList = (literals s.toList).map withoutRowMovement) ∧
    (¬KeepsApart s.toList →
      (literals (adaptExpression s).toList).length < (literals s.toList).length) := by
  obtain ⟨hrules, hapart⟩ := literals_applyRules s.toList
  have hiff := literals_eq_iff keepsQuotes_withoutRowMovement (applyRules s.toList)
  rw [toList_adaptExpression hline hbinary]
  refine ⟨hrules, ?_, fun hgaps => ?_, fun hgaps => ?_⟩
  · rw [hrules] at hiff
    exact hiff.trans (and_congr_right' hapart)
  · rw [literals_map keepsQuotes_withoutRowMovement (hapart.2 hgaps), hrules]
  · rw [← hrules]
    exact length_literals_lt keepsQuotes_withoutRowMovement fun h => hgaps (hapart.1 h)

/-- Two literals with calls and a clause outside of them. -/
def labelled : String := "'now: ' || UCASE('current date') || CURRENT DATE WITH ROW MOVEMENT"

theorem literals_labelled :
    '\n' ∉ labelled.toList ∧ occurs emptyBinary labelled.toList = false ∧
      (literals (adaptExpression labelled).toList).map String.ofList =
        ["now: ", "current date"] := by
  have hline : '\n' ∉ labelled.toList := by decide +kernel
  have hbinary : occurs emptyBinary labelled.toList = false := by decide +kernel
  obtain ⟨-, -, hmap, -⟩ := literals_adaptExpression hline hbinary
  have hgaps : ∀ text ∈ between (split labelled.toList), withoutRowMovement text ≠ [] := by
    decide +kernel
  refine ⟨hline, hbinary, ?_⟩
  rw [hmap hgaps]
  decide +kernel

/-- A literal that reads like the clause is changed. -/
theorem literal_loses_clause : ¬∀ s : String, '\n' ∉ s.toList →
    occurs emptyBinary s.toList = false →
      literals (adaptExpression s).toList = literals s.toList := by
  intro h
  have hsame := h "'READ WITH ROW MOVEMENT ON'" (by decide +kernel) (by decide +kernel)
  revert hsame
  decide +kernel

end SchemaTransfer.Expression
