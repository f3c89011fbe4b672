import Mathlib.Data.List.Infix
import Mathlib.Data.Option.Basic
import SchemaTransfer.Dump.SequenceLine
import SchemaTransfer.Dump.TableLine
import SchemaTransfer.Proofs.Dump.Scan

/-!
# Parts of a line

What a scanner accepts stands at the front of the text it reads, and what it leaves is the end of
that text. So each numeral and each type that is taken from a line occurs on it.
-/
namespace SchemaTransfer
open Unicode

namespace Scan

variable {α : Type} {p : List Char → Option α} {cs rest : List Char}

theorem trimLeft_isSuffix (cs : List Char) : trimLeft cs <:+ cs := List.dropWhile_suffix _

theorem trim_isInfix (cs : List Char) : trim cs <:+: cs :=
  (List.rdropWhile_prefix isBlank _).isInfix.trans (trimLeft_isSuffix cs).isInfix

theorem literal?_isSuffix {w : String} (h : literal? w cs = some rest) : rest <:+ cs :=
  ⟨w.toList, literal?_eq_some.1 h⟩

theorem keyword?_isSuffix {w : String} (h : keyword? w cs = some rest) : rest <:+ cs := by
  unfold keyword? at h
  generalize w.toList = ws at h
  induction ws generalizing cs with
  | nil => exact Option.some.inj h ▸ List.suffix_rfl
  | cons d ws ih =>
    cases cs with
    | nil => cases h
    | cons c cs =>
      rw [keywordChars?] at h
      split at h
      · exact (ih h).trans (List.suffix_cons c cs)
      · cases h

theorem optional_isSuffix {q : List Char → Option (List Char)}
    (h : ∀ {rest}, q cs = some rest → rest <:+ cs) : optional q cs <:+ cs := by
  unfold optional
  cases hq : q cs with
  | none => exact List.suffix_rfl
  | some rest => exact h hq

theorem blanks?_isSuffix (h : blanks? cs = some rest) : rest <:+ cs := by
  cases cs with
  | nil => cases h
  | cons c cs =>
    rw [blanks?] at h
    split at h
    · cases h
      exact (trimLeft_isSuffix cs).trans (List.suffix_cons c cs)
    · cases h

theorem name?_isSuffix {name : String} (h : name? cs = some (name, rest)) : rest <:+ cs := by
  unfold name? at h
  split at h
  · next cs =>
    split at h
    · next c rest' hdrop =>
      cases h
      have hsuffix : c :: rest <:+ cs := hdrop ▸ List.dropWhile_suffix _
      exact ((List.suffix_cons c rest).trans hsuffix).trans (List.suffix_cons _ cs)
    · cases h
  · cases h

theorem qualified?_isSuffix {names : String × String} (h : qualified? cs = some (names, rest)) :
    rest <:+ cs := by
  simp only [qualified?, Option.bind_eq_bind, Option.bind_eq_some_iff] at h
  obtain ⟨⟨schema, cs'⟩, hschema, cs'', hpoint, ⟨name, cs'''⟩, hname, heq⟩ := h
  cases heq
  exact ((name?_isSuffix hname).trans (literal?_isSuffix hpoint)).trans (name?_isSuffix hschema)

theorem oneOf?_eq_some {ws : List String} {w : String} (h : oneOf? ws cs = some (w, rest)) :
    w ∈ ws ∧ w.toList ++ rest = cs := by
  obtain ⟨v, hv, hmap⟩ := List.exists_of_findSome?_eq_some h
  obtain ⟨rest', hrest, heq⟩ := Option.map_eq_some_iff.1 hmap
  cases heq
  exact ⟨hv, literal?_eq_some.1 hrest⟩

theorem oneOf?_isSuffix {ws : List String} {w : String} (h : oneOf? ws cs = some (w, rest)) :
    rest <:+ cs := ⟨w.toList, (oneOf?_eq_some h).2⟩

theorem search?_eq_some {a : α} (h : search? p cs = some a) :
    ∃ suffix, suffix <:+ cs ∧ p suffix = some a := by
  induction cs with
  | nil => exact ⟨[], List.suffix_rfl, h⟩
  | cons c cs ih =>
    rw [search?, Option.or_eq_some_iff] at h
    obtain hhere | ⟨-, hlater⟩ := h
    · exact ⟨c :: cs, List.suffix_rfl, hhere⟩
    · obtain ⟨suffix, hsuffix, ha⟩ := ih hlater
      exact ⟨suffix, hsuffix.trans (List.suffix_cons c cs), ha⟩

theorem afterBlanks?_eq_some {a : α} (h : afterBlanks? p cs = some a) :
    ∃ suffix, suffix <:+ cs ∧ p suffix = some a := by
  induction cs with
  | nil => cases h
  | cons c cs ih =>
    rw [afterBlanks?] at h
    split at h
    · obtain hlater | ⟨-, hhere⟩ := Option.or_eq_some_iff.1 h
      · obtain ⟨suffix, hsuffix, ha⟩ := ih hlater
        exact ⟨suffix, hsuffix.trans (List.suffix_cons c cs), ha⟩
      · exact ⟨cs, List.suffix_cons c cs, hhere⟩
    · cases h

/-- Where no end of a text is accepted, no beginning is found. -/
theorem shortest?_eq_none (h : ∀ rest, rest <:+ cs → p rest = none) : shortest? p cs = none := by
  induction cs with
  | nil => rw [shortest?, h [] List.suffix_rfl]
  | cons c cs ih =>
    rw [shortest?, h _ List.suffix_rfl]
    dsimp only
    rw [ih fun rest hrest => h rest (hrest.trans (List.suffix_cons c cs)), Option.map_none,
      ite_self]

theorem shortest?_isPrefix {text : List Char} {a : α} (h : shortest? p cs = some (text, a)) :
    text <+: cs := by
  induction cs generalizing text with
  | nil =>
    unfold shortest? at h
    split at h
    · cases h
      exact List.nil_prefix
    · cases h
  | cons c cs ih =>
    unfold shortest? at h
    split at h
    · cases h
      exact List.nil_prefix
    · dsimp only at h
      split at h
      · cases h
      · obtain ⟨⟨text', b⟩, hrest, heq⟩ := Option.map_eq_some_iff.1 h
        cases heq
        exact List.cons_prefix_cons.2 ⟨rfl, ih hrest⟩

theorem shortestNonempty?_isPrefix {text : List Char} {a : α}
    (h : shortestNonempty? p cs = some (text, a)) : text <+: cs := by
  cases cs with
  | nil => cases h
  | cons c cs =>
    rw [shortestNonempty?] at h
    split at h
    · cases h
    · obtain ⟨⟨text', b⟩, hrest, heq⟩ := Option.map_eq_some_iff.1 h
      cases heq
      exact List.cons_prefix_cons.2 ⟨rfl, shortest?_isPrefix hrest⟩

/-- A row of digits on a line, with a minus sign before it or not. -/
structure NumeralOn (line numeral : List Char) : Prop where
  digits : ∃ ds, (numeral = ds ∨ numeral = '-' :: ds) ∧ ∀ c ∈ ds, isDigit c = true
  occurs : numeral <:+: line

theorem NumeralOn.mono {line line' numeral : List Char} (h : NumeralOn line numeral)
    (hline : line <:+: line') : NumeralOn line' numeral :=
  ⟨h.digits, h.occurs.trans hline⟩

theorem digits?_eq_some {ds : List Char} (h : digits? cs = some (ds, rest)) :
    cs = ds ++ rest ∧ ∀ c ∈ ds, isDigit c = true := by
  unfold digits? at h
  split at h
  · cases h
  · cases h
    exact ⟨(List.takeWhile_append_dropWhile).symm, fun c hc => List.mem_takeWhile_imp hc⟩

theorem ne_nil_of_digits? {ds : List Char} (h : digits? cs = some (ds, rest)) : ds ≠ [] := by
  unfold digits? at h
  split at h
  · cases h
  · next hds =>
    cases h
    exact hds

theorem numeralOn_of_digits? {ds : List Char} (h : digits? cs = some (ds, rest)) :
    NumeralOn cs ds := by
  obtain ⟨rfl, hdigits⟩ := digits?_eq_some h
  exact ⟨⟨ds, .inl rfl, hdigits⟩, (List.prefix_append ds rest).isInfix⟩

theorem digits?_isSuffix {ds : List Char} (h : digits? cs = some (ds, rest)) : rest <:+ cs := by
  obtain ⟨rfl, -⟩ := digits?_eq_some h
  exact List.suffix_append ds rest

theorem number?_eq_some {numeral : List Char} (h : number? cs = some (numeral, rest)) :
    NumeralOn cs numeral ∧ rest <:+ cs := by
  unfold number? at h
  split at h
  · next cs =>
    obtain ⟨⟨ds, rest'⟩, hdigits, heq⟩ := Option.map_eq_some_iff.1 h
    cases heq
    obtain ⟨rfl, hall⟩ := digits?_eq_some hdigits
    exact ⟨⟨⟨ds, .inr rfl, hall⟩, (List.prefix_append ('-' :: ds) rest).isInfix⟩,
      List.suffix_append ('-' :: ds) rest⟩
  · exact ⟨numeralOn_of_digits? h, digits?_isSuffix h⟩

end Scan

namespace Dump
open Scan

variable {line : List Char}

namespace SequenceLine

def numerals : SequenceLine → List (List Char)
  | range least greatest => [least, greatest]
  | start value increment => [value, increment]
  | cache digits _ => digits.toList

theorem numeralOn_of_twoNumbers? {first second : String} {cs a b : List Char}
    (h : twoNumbers? first second cs = some (a, b)) : ∀ v ∈ [a, b], NumeralOn cs v := by
  simp only [twoNumbers?, Option.bind_eq_bind, Option.bind_eq_some_iff] at h
  obtain ⟨cs₁, hfirst, ⟨a, cs₂⟩, ha, cs₃, hsecond, ⟨b, cs₄⟩, hb, heq⟩ := h
  cases heq
  obtain ⟨hona, hrest⟩ := number?_eq_some ha
  have hcs₁ := literal?_isSuffix hfirst
  have hcs₃ := ((literal?_isSuffix hsecond).trans hrest).trans hcs₁
  simp only [List.mem_cons, List.not_mem_nil, or_false, forall_eq_or_imp, forall_eq]
  exact ⟨hona.mono hcs₁.isInfix, (number?_eq_some hb).1.mono hcs₃.isInfix⟩

theorem numeralOn_of_cache? {cs : List Char} {digits : Option (List Char)} {cycle : Bool}
    (h : cache? cs = some (digits, cycle)) : ∀ v ∈ digits.toList, NumeralOn cs v := by
  simp only [cache?, cacheSize?, Option.bind_eq_bind, Option.bind_eq_some_iff] at h
  obtain ⟨⟨digits, cs₁⟩, hsize, cs₂, -, heq⟩ := h
  cases heq
  intro v hv
  rcases (Option.orElse_eq_some _ _ _).1 hsize with hnone | ⟨-, hsome⟩
  · obtain ⟨rest, -, heq⟩ := Option.map_eq_some_iff.1 hnone
    cases heq
    cases hv
  · simp only [Option.bind_eq_some_iff] at hsome
    obtain ⟨cs₃, hcache, ⟨ds, cs₄⟩, hdigits, cs₅, -, heq⟩ := hsome
    cases heq
    obtain rfl : v = ds := by simpa using hv
    exact (numeralOn_of_digits? hdigits).mono (literal?_isSuffix hcache).isInfix

/-- The numerals of a sequence line stand on it. -/
theorem numeralOn {clause : SequenceLine} (h : ofLine? line = some clause) :
    ∀ v ∈ clause.numerals, NumeralOn line v := by
  simp only [ofLine?, Option.orElse_eq_some, Option.map_eq_some_iff] at h
  intro v hv
  obtain ⟨suffix, hsuffix, hon⟩ : ∃ suffix, suffix <:+ line ∧ NumeralOn suffix v := by
    rcases h with ⟨p, hp, rfl⟩ | ⟨-, ⟨p, hp, rfl⟩ | ⟨-, p, hp, rfl⟩⟩
    · obtain ⟨suffix, hsuffix, hp⟩ := search?_eq_some hp
      exact ⟨suffix, hsuffix, numeralOn_of_twoNumbers? hp v hv⟩
    · obtain ⟨suffix, hsuffix, hp⟩ := search?_eq_some hp
      exact ⟨suffix, hsuffix, numeralOn_of_twoNumbers? hp v hv⟩
    · obtain ⟨suffix, hsuffix, hp⟩ := search?_eq_some hp
      exact ⟨suffix, hsuffix, numeralOn_of_cache? hp v hv⟩
  exact hon.mono hsuffix.isInfix

end SequenceLine

namespace IdentityClause

def numerals : IdentityClause → List (List Char)
  | start value | increment value | minValue value | maxValue value => [value]
  | cache digits => digits.toList
  | cycle _ | order _ _ => []

theorem numeralOn_of_value? {w : String} {cs v : List Char}
    (h : (literal? w cs).bind value? = some v) : NumeralOn cs v := by
  obtain ⟨cs₁, hword, h⟩ := Option.bind_eq_some_iff.1 h
  simp only [value?, Option.bind_eq_bind, Option.bind_eq_some_iff] at h
  obtain ⟨⟨v, cs₂⟩, hv, _, -, heq⟩ := h
  cases heq
  have hsign : optional (literal? "+") cs₁ <:+ cs₁ := optional_isSuffix literal?_isSuffix
  exact (number?_eq_some hv).1.mono (hsign.trans (literal?_isSuffix hword)).isInfix

theorem numerals_of_order? {cs : List Char} {clause : IdentityClause}
    (h : order? cs = some clause) : clause.numerals = [] := by
  simp only [order?, Option.bind_eq_bind, Option.bind_eq_some_iff] at h
  obtain ⟨cs₁, -, cs₂, -, h⟩ := h
  split at h
  · obtain ⟨_, -, heq⟩ := Option.bind_eq_some_iff.1 h
    cases heq
    rfl
  · obtain ⟨_, -, heq⟩ := Option.bind_eq_some_iff.1 h
    cases heq
    rfl

/-- The numerals of an option of an identity stand on its line. -/
theorem numeralOn {clause : IdentityClause} (h : ofLine? line = some clause) :
    ∀ v ∈ clause.numerals, NumeralOn line v := by
  intro v hv
  suffices hon : NumeralOn (trimLeft line) v from hon.mono (trimLeft_isSuffix line).isInfix
  simp only [ofLine?, Option.orElse_eq_some, Option.map_eq_some_iff] at h
  rcases h with ⟨value, hvalue, rfl⟩ | ⟨-, ⟨value, hvalue, rfl⟩ | ⟨-, ⟨value, hvalue, rfl⟩ |
    ⟨-, ⟨value, hvalue, rfl⟩ | ⟨-, ⟨entry, hentry, rfl⟩ | ⟨-, hcache | ⟨-, horder⟩⟩⟩⟩⟩⟩
  · exact List.mem_singleton.1 hv ▸ numeralOn_of_value? hvalue
  · exact List.mem_singleton.1 hv ▸ numeralOn_of_value? hvalue
  · exact List.mem_singleton.1 hv ▸ numeralOn_of_value? hvalue
  · exact List.mem_singleton.1 hv ▸ numeralOn_of_value? hvalue
  · have hnone : ∀ e ∈ fixed, e.2.numerals = [] := by decide
    rw [hnone entry (List.mem_of_find?_eq_some hentry)] at hv
    cases hv
  · simp only [Option.bind_eq_bind, Option.bind_eq_some_iff] at hcache
    obtain ⟨cs, hword, ⟨ds, rest⟩, hdigits, _, -, heq⟩ := hcache
    cases heq
    obtain rfl : v = ds := by simpa [numerals] using hv
    exact (numeralOn_of_digits? hdigits).mono (literal?_isSuffix hword).isInfix
  · rw [numerals_of_order? horder] at hv
    cases hv

end IdentityClause

theorem ColumnLine.type_isInfix {c : ColumnLine} (h : ColumnLine.ofLine? line = some c) :
    c.type <:+: line := by
  simp only [ColumnLine.ofLine?, Option.bind_eq_bind, Option.bind_eq_some_iff] at h
  obtain ⟨⟨name, cs⟩, hname, ⟨type, notNull, clause, closes⟩, htype, heq⟩ := h
  cases heq
  obtain ⟨suffix, hsuffix, htext⟩ := afterBlanks?_eq_some htype
  have hline := (hsuffix.trans (name?_isSuffix hname)).trans (trimLeft_isSuffix line)
  exact (trim_isInfix type).trans
    ((shortestNonempty?_isPrefix htext).isInfix.trans hline.isInfix)

theorem numeralOn_of_restartValue? {cs v : List Char} (h : FirstLine.restartValue? cs = some v) :
    NumeralOn cs v := by
  simp only [FirstLine.restartValue?, Option.bind_eq_bind, Option.bind_eq_some_iff] at h
  obtain ⟨cs₁, hblanks, cs₂, hword, ⟨v, cs₃⟩, hv, _, -, heq⟩ := h
  cases heq
  have hcs₂ := (literal?_isSuffix hword).trans (blanks?_isSuffix hblanks)
  exact (number?_eq_some hv).1.mono hcs₂.isInfix

/-- Behind its first words and the two names after them stands the end of the line. -/
theorem isSuffix_behindNames {w : String} {names : String × String} {cs₁ cs₂ : List Char}
    (hword : literal? w (trimLeft line) = some cs₁) (hnames : qualified? cs₁ = some (names, cs₂)) :
    cs₂ <:+ line :=
  ((qualified?_isSuffix hnames).trans (literal?_isSuffix hword)).trans (trimLeft_isSuffix line)

theorem numeralOn_of_restartSequence {schema name : String} {v : List Char}
    (h : Form.ofLine? line = some (.restartSequence schema name v)) : NumeralOn line v := by
  have hform : FirstLine.restartSequence? (trimLeft line) = some (.restartSequence schema name v) :=
    recognizes_of_ofLine? (by simp [FirstLine.recognizers, kinds, Form.kind]) h
  simp only [FirstLine.restartSequence?, Option.bind_eq_bind, Option.bind_eq_some_iff] at hform
  obtain ⟨cs₁, hword, ⟨⟨s, n⟩, cs₂⟩, hnames, v, hv, heq⟩ := hform
  cases heq
  have hcs₂ := isSuffix_behindNames hword hnames
  exact (numeralOn_of_restartValue? hv).mono hcs₂.isInfix

theorem numeralOn_of_restartIdentity {schema owner column : String} {v : List Char}
    (h : Form.ofLine? line = some (.restartIdentity schema owner column v)) : NumeralOn line v := by
  have hform : FirstLine.restartIdentity? (trimLeft line) =
      some (.restartIdentity schema owner column v) :=
    recognizes_of_ofLine? (by simp [FirstLine.recognizers, kinds, Form.kind]) h
  simp only [FirstLine.restartIdentity?, Option.bind_eq_bind, Option.bind_eq_some_iff] at hform
  obtain ⟨cs₁, hword, ⟨⟨s, n⟩, cs₂⟩, hnames, cs₃, hblanks, cs₄, hcolumn, ⟨c, cs₅⟩, hname, v, hv,
    heq⟩ := hform
  cases heq
  have hcs₂ := isSuffix_behindNames hword hnames
  have hcs₅ := ((name?_isSuffix hname).trans (literal?_isSuffix hcolumn)).trans
    (blanks?_isSuffix hblanks)
  exact (numeralOn_of_restartValue? hv).mono (hcs₅.trans hcs₂).isInfix

theorem base_isInfix_of_createDomain {schema name : String} {base : List Char}
    (h : Form.ofLine? line = some (.createDomain schema name base)) : base <:+: line := by
  have hform : FirstLine.createDomain? (trimLeft line) = some (.createDomain schema name base) :=
    recognizes_of_ofLine? (by simp [FirstLine.recognizers, kinds, Form.kind]) h
  simp only [FirstLine.createDomain?, Option.bind_eq_bind, Option.bind_eq_some_iff] at hform
  obtain ⟨cs₁, hword, ⟨⟨s, n⟩, cs₂⟩, hnames, cs₃, hblanks, cs₄, has, cs₅, hblanks', cs₆, hsysibm,
    cs₇, hpoint, ⟨b, e⟩, hbase, heq⟩ := hform
  cases heq
  have hcs₂ := isSuffix_behindNames hword hnames
  have hcs₅ := ((blanks?_isSuffix hblanks').trans (literal?_isSuffix has)).trans
    (blanks?_isSuffix hblanks)
  have hcs₇ := ((literal?_isSuffix hpoint).trans (trimLeft_isSuffix cs₆)).trans
    (literal?_isSuffix hsysibm)
  exact (shortestNonempty?_isPrefix hbase).isInfix.trans ((hcs₇.trans hcs₅).trans hcs₂).isInfix

end Dump

end SchemaTransfer
