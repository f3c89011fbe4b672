import SchemaTransfer.Dump.ColumnLine
import SchemaTransfer.Proofs.Dump.FirstLine

/-!
# Reading what was written

What a scanner does on a text that begins with something it knows. The scanners for undelimited
parts take the shortest one, so for these it counts what they do on all ends of the part: a part is
solid for a scanner that accepts none of them.
-/
namespace SchemaTransfer
open Unicode

namespace Unicode

/-- The code points of all blanks. -/
def blankCodes : List Nat :=
  [9, 10, 11, 12, 13, 28, 29, 30, 31, 32, 0x85, 0xa0, 0x1680, 0x2000, 0x2001, 0x2002, 0x2003,
   0x2004, 0x2005, 0x2006, 0x2007, 0x2008, 0x2009, 0x200a, 0x2028, 0x2029, 0x202f, 0x205f, 0x3000]

theorem mem_blankCodes_of_isBlank {c : Char} (h : isBlank c = true) : c.toNat ∈ blankCodes := by
  unfold isBlank at h
  generalize c.toNat = n at h ⊢
  dsimp only at h
  split at h
  · simp only [Bool.or_eq_true, beq_iff_eq, Bool.and_eq_true, decide_eq_true_eq] at h
    simp only [blankCodes, List.mem_cons, List.not_mem_nil, or_false]
    omega
  · simp only [Bool.or_eq_true, beq_iff_eq, Bool.and_eq_true, decide_eq_true_eq] at h
    simp only [blankCodes, List.mem_cons, List.not_mem_nil, or_false]
    omega

/-- What no blank is can be checked blank by blank. -/
theorem eq_false_of_blank {p : Char → Bool}
    (hblanks : ∀ n ∈ blankCodes, p (Char.ofNat n) = false) {c : Char} (h : isBlank c = true) :
    p c = false := by
  have hcode := hblanks c.toNat (mem_blankCodes_of_isBlank h)
  rwa [Char.ofNat_toNat] at hcode

theorem eq_false_of_isBlank {p : Char → Bool}
    (hblanks : ∀ n ∈ blankCodes, p (Char.ofNat n) = false) {c : Char} (h : p c = true) :
    isBlank c = false := by
  by_contra hblank
  rw [eq_false_of_blank hblanks (Bool.not_eq_false _ ▸ hblank)] at h
  cases h

theorem isDigit_of_isBlank {c : Char} : isBlank c = true → isDigit c = false :=
  eq_false_of_blank (by decide +kernel)

theorem isWord_of_isBlank {c : Char} : isBlank c = true → isWord c = false :=
  eq_false_of_blank (by decide +kernel)

theorem isBlank_of_isDigit {c : Char} (h : isDigit c = true) : isBlank c = false := by
  by_contra hblank
  simp [isDigit_of_isBlank (Bool.not_eq_false _ ▸ hblank)] at h

theorem isBlank_of_isWord {c : Char} (h : isWord c = true) : isBlank c = false := by
  by_contra hblank
  simp [isWord_of_isBlank (Bool.not_eq_false _ ▸ hblank)] at h

end Unicode

namespace Scan

variable {α : Type} {p : List Char → Option α}

theorem literal?_eq_none {w : String} {cs : List Char} (h : ∀ rest, w.toList ++ rest ≠ cs) :
    literal? w cs = none :=
  Option.eq_none_iff_forall_ne_some.2 fun rest hrest => h rest (literal?_eq_some.1 hrest)

/-- A word is found in a text, or it reaches beyond the text. -/
theorem literal?_append_cases (w : String) (text more : List Char) :
    literal? w (text ++ more) = (literal? w text).map (· ++ more) ∨
      literal? w text = none ∧ ∃ used rest, used ≠ [] ∧ w.toList = text ++ used ∧
        more = used ++ rest ∧ literal? w (text ++ more) = some rest := by
  cases htext : literal? w text with
  | some rest =>
    obtain rfl := literal?_eq_some.1 htext
    rw [List.append_assoc, literal?_append]
    exact .inl rfl
  | none =>
    cases hwhole : literal? w (text ++ more) with
    | none => exact .inl rfl
    | some rest =>
      rcases List.append_eq_append_iff.1 (literal?_eq_some.1 hwhole) with
        ⟨rest', hsame, -⟩ | ⟨used, hw, hmore⟩
      · cases (literal?_eq_some.2 hsame.symm).symm.trans htext
      · refine .inr ⟨rfl, used, rest, ?_, hw, hmore, rfl⟩
        rintro rfl
        rw [List.append_nil] at hw
        have hfound : literal? w text = some [] :=
          literal?_eq_some.2 ((List.append_nil _).trans hw)
        cases hfound.symm.trans htext

theorem literal?_cons_of_ne {w : String} {c d : Char} {ws : List Char} (hw : w.toList = d :: ws)
    (h : d ≠ c) (cs : List Char) : literal? w (c :: cs) = none := by
  refine literal?_eq_none fun rest heq => h ?_
  rw [hw] at heq
  exact (List.cons.inj heq).1

/-- Two texts that have different characters at one place. -/
def differ : List Char → List Char → Bool
  | c :: cs, d :: ds => c != d || differ cs ds
  | _, _ => false

theorem append_ne_of_differ {a b : List Char} (h : differ a b = true) (x y : List Char) :
    a ++ x ≠ b ++ y := by
  induction a generalizing b with
  | nil => cases h
  | cons c a ih =>
    cases b with
    | nil => cases h
    | cons d b =>
      intro heq
      obtain ⟨rfl, hrest⟩ := List.cons.inj heq
      simp only [differ, bne_self_eq_false, Bool.false_or] at h
      exact ih h hrest

theorem literal?_of_differ {w : String} {front : List Char} (h : differ w.toList front = true)
    (rest : List Char) : literal? w (front ++ rest) = none :=
  literal?_eq_none fun x => append_ne_of_differ h x rest

/-- The first word of a list that is there, if none before it can be. -/
theorem oneOf?_append {ws : List String} {w : String} (hw : w ∈ ws) (front : List Char)
    (h : ∀ v ∈ ws.takeWhile (· != w), differ v.toList (w.toList ++ front) = true)
    (rest : List Char) :
    oneOf? ws (w.toList ++ (front ++ rest)) = some (w, front ++ rest) := by
  unfold oneOf?
  induction ws with
  | nil => cases hw
  | cons v ws ih =>
    rw [List.findSome?_cons]
    by_cases hv : v = w
    · subst hv
      rw [literal?_append]
      rfl
    · rw [List.takeWhile_cons_of_pos (by simpa using hv)] at h
      rw [← List.append_assoc, literal?_of_differ (h v List.mem_cons_self), List.append_assoc]
      exact ih ((List.mem_cons.1 hw).resolve_left (Ne.symm hv))
        fun u hu => h u (List.mem_cons_of_mem _ hu)

theorem oneOf?_of_differ {ws : List String} {front : List Char}
    (h : ∀ w ∈ ws, differ w.toList front = true) (rest : List Char) :
    oneOf? ws (front ++ rest) = none := by
  unfold oneOf?
  refine List.findSome?_eq_none_iff.2 fun w hw => ?_
  rw [literal?_of_differ (h w hw)]
  rfl

theorem blanks?_of_not_blank {c : Char} (h : isBlank c = false) (cs : List Char) :
    blanks? (c :: cs) = none := by
  simp [blanks?, h]

theorem blanks?_space {c : Char} (h : isBlank c = false) (cs : List Char) :
    blanks? (' ' :: c :: cs) = some (c :: cs) := by
  rw [blanks?, trimLeft_cons h]
  rfl

/-- Blanks in front of what does not start with one. -/
theorem blanks?_append {pad rest : List Char} (hpad : allBlank pad = true) (hne : pad ≠ [])
    (hrest : trimLeft rest = rest) : blanks? (pad ++ rest) = some rest := by
  obtain ⟨c, more, rfl⟩ := List.exists_cons_of_ne_nil hne
  rw [allBlank, List.all_cons, Bool.and_eq_true] at hpad
  rw [List.cons_append, blanks?, if_pos hpad.1, trimLeft_append hpad.2, hrest]

theorem finish?_of_allBlank {pad : List Char} (h : allBlank pad = true) :
    finish? pad = some () := by
  rw [finish?, if_pos h]

theorem afterBlanks?_cons {c : Char} (h : isBlank c = true) (cs : List Char) :
    afterBlanks? p (c :: cs) = (afterBlanks? p cs).or (p cs) := by
  rw [afterBlanks?, if_pos h]

theorem afterBlanks?_of_not_blank {c : Char} (h : isBlank c = false) (cs : List Char) :
    afterBlanks? p (c :: cs) = none := by
  simp [afterBlanks?, h]

theorem afterBlanks?_space {c : Char} (h : isBlank c = false) (cs : List Char) :
    afterBlanks? p (' ' :: c :: cs) = p (c :: cs) := by
  have hnone : afterBlanks? p (c :: cs) = none := by simp [afterBlanks?, h]
  rw [afterBlanks?, hnone]
  rfl

theorem name?_append {more : List Char} (h : '"' ∉ more) (cs : List Char) :
    name? (cs ++ more) = (name? cs).map fun r => (r.1, r.2 ++ more) := by
  have hmore : more.dropWhile (· != '"') = [] :=
    List.dropWhile_eq_nil_iff.2 fun c hc => bne_iff_ne.2 fun heq => h (heq ▸ hc)
  cases cs with
  | nil =>
    cases more with
    | nil => rfl
    | cons c more =>
      have hc : c ≠ '"' := fun heq => h (heq ▸ List.mem_cons_self)
      simp [name?, hc]
  | cons c cs =>
    by_cases hc : c = '"'
    · subst hc
      by_cases hclosed : '"' ∈ cs
      · obtain ⟨name, rest, rfl, hname⟩ := List.eq_append_cons_of_mem hclosed
        have hwhole : '"' :: (name ++ '"' :: rest) ++ more =
            '"' :: (name ++ '"' :: (rest ++ more)) := by simp
        rw [hwhole, name?, name?, dropWhile_ne_append hname, dropWhile_ne_append hname,
          takeWhile_ne_append hname, takeWhile_ne_append hname]
        rfl
      · have hopen : cs.dropWhile (· != '"') = [] :=
          List.dropWhile_eq_nil_iff.2 fun c hc => bne_iff_ne.2 fun heq => hclosed (heq ▸ hc)
        rw [List.cons_append, name?, name?, List.dropWhile_append, hopen, hmore]
        rfl
    · simp [name?, hc]

/-- No end of a part, with what follows it, is accepted. -/
def Solid (p : List Char → Option α) : (text rest : List Char) → Prop
  | [], _ => True
  | c :: text, rest => p (c :: (text ++ rest)) = none ∧ Solid p text rest

theorem Solid.append {a b rest : List Char} (ha : Solid p a (b ++ rest)) (hb : Solid p b rest) :
    Solid p (a ++ b) rest := by
  induction a with
  | nil => exact hb
  | cons c a ih =>
    refine ⟨?_, ih ha.2⟩
    show p (c :: (a ++ b ++ rest)) = none
    rw [List.append_assoc]
    exact ha.1

theorem solid_of_forall {q : Char → Prop} (hp : ∀ c cs, q c → p (c :: cs) = none)
    {text : List Char} (h : ∀ c ∈ text, q c) (rest : List Char) : Solid p text rest := by
  induction text with
  | nil => trivial
  | cons c text ih =>
    exact ⟨hp c _ (h c List.mem_cons_self), ih fun d hd => h d (List.mem_cons_of_mem _ hd)⟩

theorem solid_of_suffix {text rest : List Char}
    (h : ∀ part, part ≠ [] → part <:+ text → p (part ++ rest) = none) : Solid p text rest := by
  induction text with
  | nil => trivial
  | cons c text ih =>
    exact ⟨h (c :: text) (List.cons_ne_nil c text) List.suffix_rfl,
      ih fun part hne hpart => h part hne (hpart.trans (List.suffix_cons c text))⟩

theorem shortest?_append {text rest : List Char} {a : α} (hline : '\n' ∉ text)
    (h : Solid p text rest) (hrest : p rest = some a) :
    shortest? p (text ++ rest) = some (text, a) := by
  induction text with
  | nil =>
    rw [List.nil_append]
    cases rest <;> rw [shortest?, hrest]
  | cons c text ih =>
    obtain ⟨hc, htext⟩ := List.ne_and_not_mem_of_not_mem_cons hline
    have hfeed : (c == '\n') = false := by simp [Ne.symm hc]
    rw [List.cons_append, shortest?, h.1]
    simp only [hfeed, Bool.false_eq_true, if_false, ih htext h.2, Option.map_some]

/-- A part that is solid is passed in a search. -/
theorem search?_append {text rest : List Char} (h : Solid p text rest) :
    search? p (text ++ rest) = search? p rest := by
  induction text with
  | nil => rfl
  | cons c text ih => rw [List.cons_append, search?, h.1, Option.none_or, ih h.2]

theorem keywordChars?_fold (front rest : List Char) :
    keywordChars? (front.map Casing.fold) (front ++ rest) = some rest := by
  induction front with
  | nil => rfl
  | cons c front ih => simpa [keywordChars?] using ih

theorem keyword?_of_fold {w : String} {front : List Char} (h : front.map Casing.fold = w.toList)
    (rest : List Char) : keyword? w (front ++ rest) = some rest := by
  rw [keyword?, ← h, keywordChars?_fold]

theorem keywordChars?_of_differ {ws front : List Char}
    (h : differ ws (front.map Casing.fold) = true) (rest : List Char) :
    keywordChars? ws (front ++ rest) = none := by
  induction ws generalizing front with
  | nil => cases h
  | cons w ws ih =>
    cases front with
    | nil => cases h
    | cons d front =>
      by_cases hd : w = Casing.fold d
      · subst hd
        simp only [List.map_cons, differ, bne_self_eq_false, Bool.false_or] at h
        simpa [keywordChars?] using ih h
      · simp [keywordChars?, Ne.symm hd]

/-- One or more decimal digits. -/
structure Digits where
  chars : List Char
  nonempty : chars ≠ [] := by decide
  digits : ∀ c ∈ chars, isDigit c = true := by exact List.all_eq_true.1 (by decide)

theorem takeWhile_exact {q : Char → Bool} {a rest : List Char} (ha : ∀ c ∈ a, q c = true)
    (h : ∀ c ∈ rest.head?, q c = false) : (a ++ rest).takeWhile q = a := by
  rw [List.takeWhile_append_of_pos ha]
  cases rest with
  | nil => rw [List.takeWhile_nil, List.append_nil]
  | cons c rest => rw [List.takeWhile_cons_of_neg (by simp [h c rfl]), List.append_nil]

theorem dropWhile_exact {q : Char → Bool} {a rest : List Char} (ha : ∀ c ∈ a, q c = true)
    (h : ∀ c ∈ rest.head?, q c = false) : (a ++ rest).dropWhile q = rest := by
  rw [List.dropWhile_append_of_pos ha]
  cases rest with
  | nil => rfl
  | cons c rest => exact List.dropWhile_cons_of_neg (by simp [h c rfl])

theorem digits?_append (ds : Digits) {rest : List Char} (h : ∀ c ∈ rest.head?, isDigit c = false) :
    digits? (ds.chars ++ rest) = some (ds.chars, rest) := by
  unfold digits?
  rw [takeWhile_exact ds.digits h, dropWhile_exact ds.digits h]
  split
  · next hnil => exact absurd hnil ds.nonempty
  · rfl

theorem Digits.eq_cons (ds : Digits) : ∃ c cs, ds.chars = c :: cs ∧ isDigit c = true := by
  obtain ⟨c, cs, h⟩ := List.exists_cons_of_ne_nil ds.nonempty
  exact ⟨c, cs, h, ds.digits c (h ▸ List.mem_cons_self)⟩

theorem Digits.trimLeft_append (ds : Digits) (cs : List Char) :
    trimLeft (ds.chars ++ cs) = ds.chars ++ cs := by
  obtain ⟨c, chars, hds, hc⟩ := ds.eq_cons
  rw [hds]
  exact trimLeft_cons (isBlank_of_isDigit hc) _

/-- One or more letters, numbers and underscores. -/
structure Word where
  chars : List Char
  nonempty : chars ≠ []
  words : ∀ c ∈ chars, isWord c = true

theorem Word.eq_cons (w : Word) : ∃ c cs, w.chars = c :: cs ∧ isWord c = true := by
  obtain ⟨c, cs, h⟩ := List.exists_cons_of_ne_nil w.nonempty
  exact ⟨c, cs, h, w.words c (h ▸ List.mem_cons_self)⟩

/-- What a test tells apart is not the same. -/
theorem ne_of_test {q : Char → Bool} {c d : Char} (hc : q c = true) (hd : q d = false) :
    c ≠ d := ne_of_apply_ne q (by rw [hc, hd]; decide)

theorem not_mem_of_all {q : Char → Bool} {c : Char} {cs : List Char} (hall : cs.all q = true)
    (h : q c = false) : c ∉ cs :=
  fun hc => ne_of_test (List.all_eq_true.1 hall c hc) h rfl

theorem Digits.ne {ds : Digits} {c : Char} (h : isDigit c = false) : c ∉ ds.chars :=
  fun hc => ne_of_test (ds.digits c hc) h rfl

theorem head_of_allBlank {pad : List Char} (h : allBlank pad = true) :
    ∀ c ∈ pad.head?, isDigit c = false := fun _ hc =>
  isDigit_of_isBlank (List.all_eq_true.1 h _ (List.mem_of_mem_head? hc))

theorem isDigit_head?_append {pad tail : List Char} (hpad : allBlank pad = true)
    (htail : ∀ c ∈ tail.head?, isDigit c = false) :
    ∀ c ∈ (pad ++ tail).head?, isDigit c = false := by
  cases pad with
  | nil => exact htail
  | cons b pad => exact fun c hc => head_of_allBlank hpad c hc

theorem number?_append (ds : Digits) {rest : List Char} (h : ∀ c ∈ rest.head?, isDigit c = false) :
    number? (ds.chars ++ rest) = some (ds.chars, rest) := by
  have hdigits := digits?_append ds h
  obtain ⟨c, chars, hds, hc⟩ := ds.eq_cons
  rw [hds, List.cons_append] at hdigits ⊢
  unfold number?
  split
  · next heq =>
    cases heq
    exact absurd rfl (ne_of_test hc (d := '-') (by decide))
  · exact hdigits

theorem Word.ne {w : Word} {c : Char} (h : isWord c = false) : c ∉ w.chars :=
  fun hc => ne_of_test (w.words c hc) h rfl

theorem endsVisible_of_forall {cs : List Char} (hne : cs ≠ [])
    (h : ∀ c ∈ cs, isBlank c = false) : endsVisible cs = true := by
  unfold endsVisible
  rw [List.getLast?_eq_some_getLast hne, Option.any_some, h _ (List.getLast_mem hne)]
  rfl

theorem Digits.endsVisible (ds : Digits) : Unicode.endsVisible ds.chars = true :=
  endsVisible_of_forall ds.nonempty fun c hc => isBlank_of_isDigit (ds.digits c hc)

theorem Word.endsVisible (w : Word) : Unicode.endsVisible w.chars = true :=
  endsVisible_of_forall w.nonempty fun c hc => isBlank_of_isWord (w.words c hc)

theorem append_cons_inj {c : Char} {a b x y : List Char} (ha : c ∉ a) (hb : c ∉ b) :
    a ++ c :: x = b ++ c :: y ↔ a = b ∧ x = y := by
  constructor
  · intro h
    have hfront : a = b := by rw [← takeWhile_ne_append ha x, h, takeWhile_ne_append hb]
    subst hfront
    exact ⟨rfl, (List.cons.inj (List.append_cancel_left h)).2⟩
  · rintro ⟨rfl, rfl⟩
    rfl

/-- Two words at the front of a text are found only if the first is there as a whole. -/
theorem isPrefixOf?_words {a b w rest : List Char} (ha : ' ' ∉ a) (hw : ' ' ∉ w) :
    (a ++ ' ' :: b).isPrefixOf? (w ++ ' ' :: rest) =
      if a = w then b.isPrefixOf? rest else none := by
  ext zs
  rw [List.isPrefixOf?_eq_some_iff_append_eq, List.append_assoc, List.cons_append,
    append_cons_inj ha hw]
  split
  · next h => rw [List.isPrefixOf?_eq_some_iff_append_eq, and_iff_right h]
  · next h => simp [h]

end Scan

namespace Dump
open Scan

/-- Nothing, or a blank or a parenthesis ahead of the rest. -/
def BreaksOff (tail : List Char) : Prop := ∀ c ∈ tail.head?, isBlank c = true ∨ c = '('

namespace BreaksOff

variable {tail : List Char}

theorem isWord (h : BreaksOff tail) {c : Char} (hc : c ∈ tail.head?) :
    Unicode.isWord c = false ∧ Unicode.isWord (Casing.fold c) = false := by
  rcases h c hc with hblank | rfl
  · constructor
    · exact isWord_of_isBlank hblank
    · exact eq_false_of_blank (p := fun c => Unicode.isWord (Casing.fold c)) (by decide +kernel)
        hblank
  · decide +kernel

theorem wordEnds_append (h : BreaksOff tail) (cs : List Char) :
    wordEnds (cs ++ tail) = wordEnds cs := by
  cases cs with
  | cons c cs => rfl
  | nil =>
    cases tail with
    | nil => rfl
    | cons c tail => simp [wordEnds, (h.isWord (c := c) rfl).1]

end BreaksOff

end Dump

end SchemaTransfer
