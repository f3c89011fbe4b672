import SchemaTransfer.Proofs.Extent

/-!
# The end of a column line

A column line ends in blanks, with a separator among them or without one. A scanner is steady if
what it makes of a text in front of such an end does not depend on the blanks, up to a relation
between values. Scanners put together from steady ones are steady: where a part of the text is
still left, since they are on that part, and where nothing is left, since the words they look for
do not end in a blank or separator.
-/
namespace SchemaTransfer.Dump
open Unicode Scan ColumnLine

/-- A row of blanks on a line. -/
structure Blanks where
  chars : List Char
  blank : allBlank chars = true
  line : '\n' ∉ chars

inductive LineEnd
  | bare (pad : Blanks)
  /-- `closes` tells whether the separator is a closing parenthesis and not a comma. -/
  | separated (pad : Blanks) (apart : pad.chars ≠ []) (closes : Bool) (tail : Blanks)

namespace LineEnd

def pad : LineEnd → List Char
  | bare pad => pad.chars
  | separated pad _ _ _ => pad.chars

def separator : LineEnd → Option Bool
  | bare _ => none
  | separated _ _ closes _ => some closes

def text : LineEnd → List Char
  | bare pad => pad.chars
  | separated pad _ closes tail =>
    pad.chars ++ (if closes then ')' else ',') :: tail.chars

/-- No blank is there but the one that a separator needs. -/
def isTight : LineEnd → Bool
  | bare pad => pad.chars.isEmpty
  | separated pad _ _ _ => pad.chars.length == 1

/-- The characters of line ends. -/
def isEndChar (c : Char) : Bool := isBlank c || c == ',' || c == ')'

theorem isEndChar_of_isBlank {c : Char} (h : isBlank c = true) : isEndChar c = true := by
  rw [isEndChar, h]
  rfl

theorem isEndChar_of_mem {e : LineEnd} {c : Char} (h : c ∈ e.text) : isEndChar c = true := by
  cases e with
  | bare pad => exact isEndChar_of_isBlank (List.all_eq_true.1 pad.blank c h)
  | separated pad _ closes tail =>
    rcases List.mem_append.1 h with h | h
    · exact isEndChar_of_isBlank (List.all_eq_true.1 pad.blank c h)
    · rcases List.mem_cons.1 h with rfl | h
      · cases closes <;> decide
      · exact isEndChar_of_isBlank (List.all_eq_true.1 tail.blank c h)

theorem allBlank_pad (e : LineEnd) : allBlank e.pad = true := by
  cases e with
  | bare pad => exact pad.blank
  | separated pad _ _ _ => exact pad.blank

theorem allBlank_text (e : LineEnd) : allBlank e.text = e.separator.isNone := by
  cases e with
  | bare pad => exact pad.blank
  | separated pad _ closes tail =>
    have hcomma : isBlank ',' = false := by decide
    have hparenthesis : isBlank ')' = false := by decide
    simp only [text, separator, allBlank, List.all_append, List.all_cons]
    cases closes <;> simp [hcomma, hparenthesis]

/-- A line end starts with a blank if it is not empty. -/
theorem isBlank_of_text_cons {e : LineEnd} {c : Char} {cs : List Char} (h : e.text = c :: cs) :
    isBlank c = true := by
  have hpad {pad : Blanks} {more : List Char} (hc : pad.chars = c :: more) : isBlank c = true :=
    List.all_eq_true.1 pad.blank c (hc ▸ List.mem_cons_self)
  cases e with
  | bare pad => exact hpad h
  | separated pad apart closes tail =>
    obtain ⟨d, more, hd⟩ := List.exists_cons_of_ne_nil apart
    rw [text, hd] at h
    obtain ⟨rfl, -⟩ := List.cons.inj h
    exact hpad hd

theorem separator?_text (e : LineEnd) : separator? e.text = none := by
  cases htext : e.text with
  | nil => rfl
  | cons c cs =>
    have hblank := isBlank_of_text_cons htext
    unfold separator?
    split
    · next heq =>
      cases heq
      exact absurd hblank (by decide)
    · next heq =>
      cases heq
      exact absurd hblank (by decide)
    · rfl

theorem lineEnd?_text (e : LineEnd) : lineEnd? e.text = some (e.separator.getD false) := by
  unfold lineEnd?
  cases e with
  | bare pad =>
    have hnone : (blanks? pad.chars).bind separator? = none := by
      by_cases hpad : pad.chars = []
      · rw [hpad]
        rfl
      · have hblanks : blanks? (pad.chars ++ []) = some [] := blanks?_append pad.blank hpad rfl
        rw [List.append_nil] at hblanks
        rw [hblanks]
        rfl
    rw [text, hnone, pad.blank]
    rfl
  | separated pad apart closes tail =>
    rw [text, blanks?_append pad.blank apart (trimLeft_cons (by cases closes <;> decide) _)]
    cases closes <;> simp [separator?, tail.blank, separator]

end LineEnd

/-- A text that does not end in a blank. -/
def Unpadded (text : List Char) : Prop := text = [] ∨ endsVisible text = true

theorem Unpadded.suffix {text rest : List Char} (h : Unpadded text) (hrest : rest <:+ text) :
    Unpadded rest := by
  by_cases hne : rest = []
  · exact .inl hne
  · rcases h with rfl | h
    · exact absurd (List.suffix_nil.1 hrest) hne
    · exact .inr (endsVisible_of_suffix h hrest hne)

/-- A line whose end gets more blanks, with the same separator among them or none as before. -/
structure Widening where
  front : List Char
  old : LineEnd
  new : LineEnd
  unpadded : Unpadded front
  separator : new.separator = old.separator
  wider : old.pad.length ≤ new.pad.length

namespace Widening

def before (x : Widening) : List Char := x.front ++ x.old.text

def after (x : Widening) : List Char := x.front ++ x.new.text

variable {α β : Type} {x : Widening} {R : α → α → Prop}

/-- What `p` makes of a part of the line up to one end is related to what it makes of that part up
to the other. -/
def Steady (x : Widening) (R : α → α → Prop) (p : List Char → Option α) : Prop :=
  ∀ text, text <:+ x.front → Option.Rel R (p (text ++ x.old.text)) (p (text ++ x.new.text))

/-- Nothing is accepted that is made of the characters of line ends. -/
def Dead (p : List Char → Option α) : Prop :=
  ∀ cs, (∀ c ∈ cs, LineEnd.isEndChar c = true) → p cs = none

theorem rel_or {a b c d : Option α} (h : Option.Rel R a b) (h' : Option.Rel R c d) :
    Option.Rel R (a.or c) (b.or d) := by
  cases h with
  | some h => exact .some h
  | none => exact h'

theorem rel_map {S : β → β → Prop} {f : α → β} (hf : ∀ a b, R a b → S (f a) (f b))
    {a b : Option α} (h : Option.Rel R a b) : Option.Rel S (a.map f) (b.map f) := by
  cases h with
  | some h => exact .some (hf _ _ h)
  | none => exact .none

theorem Steady.or {p q : List Char → Option α} (hp : Steady x R p) (hq : Steady x R q) :
    Steady x R fun cs => (p cs).or (q cs) :=
  fun text htext => rel_or (hp text htext) (hq text htext)

theorem Steady.map {S : β → β → Prop} {p : List Char → Option α} {f : α → β}
    (hp : Steady x R p) (hf : ∀ a b, R a b → S (f a) (f b)) :
    Steady x S fun cs => (p cs).map f :=
  fun text htext => rel_map hf (hp text htext)

/-- A word that ends in another character does not reach into a line end. -/
theorem stopsAt_text {w : String}
    (hw : w.toList.getLast?.all (fun c => !LineEnd.isEndChar c) = true) (e : LineEnd) :
    StopsAt (literal? w) e.text := by
  intro text
  refine (literal?_append_cases w text e.text).resolve_right ?_
  rintro ⟨-, used, rest, hne, hused, htext, -⟩
  rw [hused, List.getLast?_append_of_ne_nil _ hne, List.getLast?_eq_some_getLast hne] at hw
  have hend : LineEnd.isEndChar (used.getLast hne) = true :=
    LineEnd.isEndChar_of_mem (htext ▸ List.mem_append_left _ (List.getLast_mem hne))
  rw [Option.all_some, hend] at hw
  cases hw

theorem Steady.literal {w : String} {q : List Char → Option α}
    (hw : w.toList.getLast?.all (fun c => !LineEnd.isEndChar c) = true) (hq : Steady x R q) :
    Steady x R fun cs => (literal? w cs).bind q := by
  intro text htext
  dsimp only
  rw [stopsAt_text hw x.old text, stopsAt_text hw x.new text]
  cases hfound : literal? w text with
  | none => exact .none
  | some rest => exact hq rest ((literal?_isSuffix hfound).trans htext)

/-- As above, for a word that may reach into the line end. -/
theorem Steady.literal_of_dead {w : String} {q : List Char → Option α} (hq : Steady x R q)
    (hdead : Dead q) : Steady x R fun cs => (literal? w cs).bind q := by
  have hreach (e : LineEnd) (text : List Char) : (literal? w (text ++ e.text)).bind q =
      (literal? w text).bind fun rest => q (rest ++ e.text) := by
    rcases literal?_append_cases w text e.text with
      hstops | ⟨hnone, used, rest, -, -, htext, hfound⟩
    · rw [hstops]
      cases literal? w text <;> rfl
    · rw [hnone, hfound]
      exact hdead rest fun c hc => LineEnd.isEndChar_of_mem (htext ▸ List.mem_append_right _ hc)
  intro text htext
  dsimp only
  rw [hreach x.old, hreach x.new]
  cases hfound : literal? w text with
  | none => exact .none
  | some rest => exact hq rest ((literal?_isSuffix hfound).trans htext)

theorem literal?_of_endChars {w : String}
    (hw : w.toList.head?.any (fun c => !LineEnd.isEndChar c) = true) {cs : List Char}
    (hcs : ∀ c ∈ cs, LineEnd.isEndChar c = true) : literal? w cs = none := by
  refine literal?_eq_none fun rest heq => ?_
  cases hhead : w.toList with
  | nil =>
    rw [hhead] at hw
    cases hw
  | cons c ws =>
    rw [hhead] at hw heq
    have hend := hcs c (heq ▸ List.mem_cons_self)
    simp [hend] at hw

theorem dead_literal {w : String} {q : List Char → Option α}
    (hw : w.toList.head?.any (fun c => !LineEnd.isEndChar c) = true) :
    Dead fun cs => (literal? w cs).bind q := by
  intro cs hcs
  dsimp only
  rw [literal?_of_endChars hw hcs]
  rfl

theorem dead_oneOf {ws : List String} {q : String × List Char → Option α}
    (hws : ∀ w ∈ ws, w.toList.head?.any (fun c => !LineEnd.isEndChar c) = true) :
    Dead fun cs => (oneOf? ws cs).bind q := by
  intro cs hcs
  have hnone : oneOf? ws cs = none :=
    List.findSome?_eq_none_iff.2 fun w hw => by rw [literal?_of_endChars (hws w hw) hcs]; rfl
  dsimp only
  rw [hnone]
  rfl

theorem Dead.trimLeft {q : List Char → Option α} (h : Dead q) : Dead fun cs => q (trimLeft cs) :=
  fun cs hcs => h _ fun c hc => hcs c ((trimLeft_isSuffix cs).mem hc)

theorem Dead.blanks {q : List Char → Option α} (h : Dead q) :
    Dead fun cs => (blanks? cs).bind q := by
  intro cs hcs
  dsimp only
  cases hblanks : blanks? cs with
  | none => rfl
  | some rest => exact h rest fun c hc => hcs c ((blanks?_isSuffix hblanks).mem hc)

theorem Dead.apply_text {q : List Char → Option α} (h : Dead q) (e : LineEnd) : q e.text = none :=
  h _ fun _ => LineEnd.isEndChar_of_mem

theorem Steady.trimLeft {q : List Char → Option α} (hq : Steady x R q) (hdead : Dead q) :
    Steady x R fun cs => q (trimLeft cs) := by
  intro text htext
  dsimp only
  rcases x.unpadded.suffix htext with rfl | hvisible
  · rw [List.nil_append, List.nil_append, hdead.trimLeft.apply_text, hdead.trimLeft.apply_text]
    exact .none
  · rw [trimLeft_append_of_endsVisible hvisible, trimLeft_append_of_endsVisible hvisible]
    exact hq _ ((trimLeft_isSuffix text).trans htext)

theorem blanks?_append_of_endsVisible {text : List Char} (h : endsVisible text = true)
    (more : List Char) : blanks? (text ++ more) = (blanks? text).map (· ++ more) := by
  cases text with
  | nil => cases h
  | cons c cs =>
    rw [List.cons_append, blanks?, blanks?]
    split
    · next hc =>
      rw [trimLeft_append_of_endsVisible (endsVisible_of_cons hc h)]
      rfl
    · rfl

theorem Steady.blanks {q : List Char → Option α} (hq : Steady x R q) (hdead : Dead q) :
    Steady x R fun cs => (blanks? cs).bind q := by
  intro text htext
  dsimp only
  rcases x.unpadded.suffix htext with rfl | hvisible
  · rw [List.nil_append, List.nil_append, hdead.blanks.apply_text, hdead.blanks.apply_text]
    exact .none
  · rw [blanks?_append_of_endsVisible hvisible, blanks?_append_of_endsVisible hvisible]
    cases hblanks : blanks? text with
    | none => exact .none
    | some rest => exact hq rest ((blanks?_isSuffix hblanks).trans htext)

theorem rel_of_eq {a b : Option α} (h : a = b) : Option.Rel Eq a b := by
  subst h
  cases a with
  | none => exact .none
  | some a => exact .some rfl

theorem allBlank_append_text (x : Widening) (cs : List Char) :
    allBlank (cs ++ x.old.text) = allBlank (cs ++ x.new.text) := by
  have hsame : allBlank x.old.text = allBlank x.new.text := by
    rw [LineEnd.allBlank_text, LineEnd.allBlank_text, x.separator]
  unfold allBlank at hsame ⊢
  rw [List.all_append, List.all_append, hsame]

theorem separator?_cons (c : Char) (cs : List Char) :
    separator? (c :: cs) =
      if allBlank cs then if c = ',' then some false else if c = ')' then some true else none
      else none := by
  by_cases hcomma : c = ','
  · subst hcomma
    rfl
  · by_cases hparenthesis : c = ')'
    · subst hparenthesis
      rfl
    · simp [separator?, hcomma, hparenthesis]

theorem separator?_append_text (x : Widening) (cs : List Char) :
    separator? (cs ++ x.old.text) = separator? (cs ++ x.new.text) := by
  cases cs with
  | nil => rw [List.nil_append, List.nil_append, LineEnd.separator?_text, LineEnd.separator?_text]
  | cons c cs =>
    rw [List.cons_append, List.cons_append, separator?_cons, separator?_cons,
      x.allBlank_append_text]

theorem steady_lineEnd? (x : Widening) : Steady x Eq lineEnd? := by
  intro text htext
  refine rel_of_eq ?_
  rcases x.unpadded.suffix htext with rfl | hvisible
  · rw [List.nil_append, List.nil_append, LineEnd.lineEnd?_text, LineEnd.lineEnd?_text, x.separator]
  · unfold lineEnd?
    rw [x.allBlank_append_text, blanks?_append_of_endsVisible hvisible,
      blanks?_append_of_endsVisible hvisible]
    cases blanks? text with
    | none => rfl
    | some rest => simp only [Option.map_some, Option.bind_some, x.separator?_append_text]

theorem Steady.shortest {p : List Char → Option α} {S : List Char × α → List Char × α → Prop}
    (hp : Steady x R p) (hnil : ∀ a b, R a b → S ([], a) ([], b))
    (hcons : ∀ c a b, S a b → S (c :: a.1, a.2) (c :: b.1, b.2))
    (hend : Option.Rel S (shortest? p x.old.text) (shortest? p x.new.text)) :
    Steady x S (shortest? p) := by
  intro text htext
  induction text with
  | nil => exact hend
  | cons c text ih =>
    have hrel := hp (c :: text) htext
    rw [List.cons_append, List.cons_append] at hrel ⊢
    rw [shortest?, shortest?]
    generalize p (c :: (text ++ x.old.text)) = a at hrel
    generalize p (c :: (text ++ x.new.text)) = b at hrel
    cases hrel with
    | some h => exact .some (hnil _ _ h)
    | none =>
      dsimp only
      split
      · exact .none
      · exact rel_map (hcons c) (ih ((List.suffix_cons c text).trans htext))

/-- As `Steady.literal`, for a single character; it may be a separator, since a line end does not
start with one. -/
theorem Steady.character {w : String} {c : Char} {q : List Char → Option α} (hw : w.toList = [c])
    (hc : isBlank c = false) (hq : Steady x R q) :
    Steady x R fun cs => (literal? w cs).bind q := by
  have hcons (d : Char) (cs : List Char) :
      literal? w (d :: cs) = if c = d then some cs else none := by
    rw [literal?, hw]
    simp [List.isPrefixOf?]
  have hend (e : LineEnd) : literal? w e.text = none := by
    cases htext : e.text with
    | nil =>
      rw [literal?, hw]
      rfl
    | cons d cs =>
      rw [hcons, if_neg]
      rintro rfl
      cases (LineEnd.isBlank_of_text_cons htext).symm.trans hc
  intro text htext
  dsimp only
  cases text with
  | nil =>
    rw [List.nil_append, List.nil_append, hend, hend]
    exact .none
  | cons d text =>
    rw [List.cons_append, List.cons_append, hcons, hcons]
    split
    · exact hq text ((List.suffix_cons d text).trans htext)
    · exact .none

theorem oneOf?_append_text {ws : List String}
    (hws : ∀ w ∈ ws, w.toList.getLast?.all (fun c => !LineEnd.isEndChar c) = true) (e : LineEnd)
    (text : List Char) :
    oneOf? ws (text ++ e.text) = (oneOf? ws text).map fun r => (r.1, r.2 ++ e.text) := by
  unfold oneOf?
  induction ws with
  | nil => rfl
  | cons w ws ih =>
    obtain ⟨hw, hws⟩ := List.forall_mem_cons.1 hws
    rw [List.findSome?_cons, List.findSome?_cons, stopsAt_text hw e text]
    cases literal? w text with
    | none => exact ih hws
    | some rest => rfl

theorem Steady.oneOf {ws : List String} {q : String × List Char → Option α}
    (hws : ∀ w ∈ ws, w.toList.getLast?.all (fun c => !LineEnd.isEndChar c) = true)
    (hq : ∀ w, Steady x R fun cs => q (w, cs)) : Steady x R fun cs => (oneOf? ws cs).bind q := by
  intro text htext
  dsimp only
  rw [oneOf?_append_text hws, oneOf?_append_text hws]
  cases hfound : oneOf? ws text with
  | none => exact .none
  | some r => exact hq r.1 r.2 ((oneOf?_isSuffix hfound).trans htext)

/-- Blanks in front of a text that is not all blank. -/
theorem rel_afterBlanks? {p : List Char → Option α}
    (hp : ∀ text, text <:+ x.front → endsVisible text = true →
      Option.Rel R (p (text ++ x.old.text)) (p (text ++ x.new.text))) {text : List Char}
    (htext : text <:+ x.front) (hvisible : endsVisible text = true) :
    Option.Rel R (afterBlanks? p (text ++ x.old.text)) (afterBlanks? p (text ++ x.new.text)) := by
  induction text with
  | nil => cases hvisible
  | cons c text ih =>
    rw [List.cons_append, List.cons_append, afterBlanks?, afterBlanks?]
    split
    · next hc =>
      have hrest := endsVisible_of_cons hc hvisible
      have hsuffix := (List.suffix_cons c text).trans htext
      exact rel_or (ih hsuffix hrest) (hp text hsuffix hrest)
    · exact .none

end Widening

end SchemaTransfer.Dump
