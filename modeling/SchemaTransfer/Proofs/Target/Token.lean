import SchemaTransfer.Proofs.Names.Normal

/-!
# Identifiers as the target reads them

Where a name is expected the target reads a text between double quotes, in which a double quote is
doubled, or else as many characters of an unquoted name as there are. An unquoted name is folded to
lower case and is no reserved word. Which characters beyond ASCII are letters is left open, and so
is how many characters of a name count.

A name of the source that is written for the target is read as its normalized form exactly if that
is a reserved word or has the form of an unquoted name. Every other name is written as if it had
that form.
-/
namespace SchemaTransfer.Token
open Unicode

section

variable (wide : Char → Bool)

/-- A letter of ASCII, or a wide character that counts as one. -/
def isLetter (c : Char) : Bool := c.isAlpha || (128 ≤ c.toNat && wide c)

def isFirst (c : Char) : Bool := c == '_' || isLetter wide c

def isInner (c : Char) : Bool := isFirst wide c || c.isDigit || c == '$'

/-- What stands ahead of the closing double quote, and what stands behind it. -/
def quoted? : List Char → Option (List Char × List Char)
  | [] => none
  | '"' :: '"' :: rest => (quoted? rest).map fun p => ('"' :: p.1, p.2)
  | '"' :: rest => some ([], rest)
  | c :: rest => (quoted? rest).map fun p => (c :: p.1, p.2)

/-- The name that an unquoted identifier at the beginning of a text denotes, and the rest. -/
def unquoted? (text : List Char) : Option (List Char × List Char) :=
  let name := (text.takeWhile (isInner wide)).map Char.toLower
  if text.head?.any (isFirst wide) && !reservedWords.contains (.ofList name) then
    some (name, text.dropWhile (isInner wide))
  else none

/-- The name that the identifier at the beginning of a text denotes, and the rest of the text. -/
def identifier? : List Char → Option (List Char × List Char)
  | '"' :: rest => (quoted? rest).filter fun p => !p.1.isEmpty
  | text => unquoted? wide text

/-- From where a name is written, with a text behind it, the target reads its normalized form and
goes on with that text. -/
def Reads (name : String) (behind : List Char) : Prop :=
  identifier? wide ((identifier name).toList ++ behind) = some ((normalize name).toList, behind)

/-- A text with the form of an unquoted name. -/
def isUnquoted (text : List Char) : Bool := text.head?.any (isFirst wide) && text.all (isInner wide)

/-- A name that reaches the target as it is normalized. -/
def IsProtected (name : String) : Prop :=
  normalize name ∈ reservedWords ∨ isUnquoted wide (normalize name).toList = true

instance (name : String) : Decidable (IsProtected wide name) :=
  inferInstanceAs (Decidable (_ ∨ _))

end

/-- A character of ASCII that ends every identifier. -/
def isBreak (c : Char) : Bool :=
  c.toNat < 128 && !(c.isAlphanum || c == '_' || c == '$' || c == '"')

/-- A text that does not go on with an identifier ahead of it. -/
def Breaks (text : List Char) : Prop := ∀ c ∈ text.head?, isBreak c = true

variable {wide : Char → Bool} {text behind : List Char} {c : Char}

theorem isInner_of_isBreak (h : isBreak c = true) : isInner wide c = false ∧ c ≠ '"' := by
  simp only [isBreak, Char.isAlphanum, Bool.and_eq_true, decide_eq_true_eq, Bool.not_eq_true',
    Bool.or_eq_false_iff, beq_eq_false_iff_ne] at h
  obtain ⟨hascii, ⟨⟨⟨halpha, hdigit⟩, hline⟩, hdollar⟩, hquote⟩ := h
  have hwide : ¬128 ≤ c.toNat := by omega
  simp [isInner, isFirst, isLetter, halpha, hdigit, hline, hdollar, hquote, hwide]

theorem quoted?_append (h : '"' ∉ text) (hbehind : Breaks behind) :
    quoted? (text ++ '"' :: behind) = some (text, behind) := by
  induction text with
  | nil =>
    cases behind with
    | nil => rfl
    | cons d rest =>
      have hd : isInner (fun _ => false) d = false ∧ d ≠ '"' := isInner_of_isBreak (hbehind d rfl)
      rw [List.nil_append, quoted?.eq_3 _ (by simpa using hd.2)]
  | cons d text ih =>
    have hd : d ≠ '"' := fun hquote => h (hquote ▸ List.mem_cons_self)
    have hrest := ih fun hquote => h (List.mem_cons_of_mem d hquote)
    simp [quoted?, hd, hrest]

/-- The closing double quote belongs to no name. -/
theorem length_quoted? {name rest : List Char} (h : quoted? text = some (name, rest)) :
    name.length + rest.length < text.length := by
  induction text using quoted?.induct generalizing name with
  | case1 => cases h
  | case2 text ih =>
    obtain ⟨p, hp, hname⟩ := Option.map_eq_some_iff.1 h
    obtain ⟨rfl, rfl⟩ := Prod.mk.inj hname
    have := ih hp
    simp only [List.length_cons]
    omega
  | case3 text hother =>
    rw [quoted?.eq_3 _ hother] at h
    cases h
    simp
  | case4 c text hdouble hquote ih =>
    rw [quoted?.eq_4 _ _ hdouble hquote] at h
    obtain ⟨p, hp, hname⟩ := Option.map_eq_some_iff.1 h
    obtain ⟨rfl, rfl⟩ := Prod.mk.inj hname
    have := ih hp
    simp only [List.length_cons]
    omega

/-- What is in lower case is not folded. -/
theorem toLower_of_isLower (h : Casing.IsLower c) : c.toLower = c := by
  have hlower := h.2
  unfold Casing.lowerChar at hlower
  dsimp only at hlower
  split at hlower
  · exact List.singleton_inj.1 hlower
  · next hwide =>
    have hupper : ¬(c.val ≥ 'A'.val ∧ c.val ≤ 'Z'.val) := by
      rintro ⟨-, hbound⟩
      have hbound : c.toNat ≤ 'Z'.toNat := hbound
      have hz : 'Z'.toNat < 128 := by decide
      omega
    unfold Char.toLower
    rw [dif_neg hupper]

theorem takeWhile_isInner (htext : text.all (isInner wide) = true) (hbehind : Breaks behind) :
    (text ++ behind).takeWhile (isInner wide) = text ∧
      (text ++ behind).dropWhile (isInner wide) = behind := by
  have htext := List.all_eq_true.1 htext
  have hstop : behind.takeWhile (isInner wide) = [] := by
    cases behind with
    | nil => rfl
    | cons d rest =>
      exact List.takeWhile_cons_of_neg (by simp [(isInner_of_isBreak (hbehind d rfl)).1])
  have htake : (text ++ behind).takeWhile (isInner wide) = text := by
    rw [List.takeWhile_append_of_pos htext, hstop, List.append_nil]
  refine ⟨htake, (List.append_right_inj text).1 ?_⟩
  have hsplit := List.takeWhile_append_dropWhile (p := isInner wide) (l := text ++ behind)
  rwa [htake] at hsplit

theorem isUnquoted_iff : isUnquoted wide text = true ↔
    ∃ d rest, text = d :: rest ∧ isFirst wide d = true ∧ text.all (isInner wide) = true := by
  unfold isUnquoted
  cases text with
  | nil => simp
  | cons d rest => simp

theorem unquoted?_append (htext : isUnquoted wide text = true)
    (hlower : ∀ d ∈ text, Casing.IsLower d) (hfree : String.ofList text ∉ reservedWords)
    (hbehind : Breaks behind) : unquoted? wide (text ++ behind) = some (text, behind) := by
  obtain ⟨d, rest, rfl, hfirst, hinner⟩ := isUnquoted_iff.1 htext
  obtain ⟨htake, hdrop⟩ := takeWhile_isInner hinner hbehind
  have hfold : (d :: rest).map Char.toLower = d :: rest := by
    conv_rhs => rw [← List.map_id (d :: rest)]
    exact List.map_congr_left fun e he => toLower_of_isLower (hlower e he)
  unfold unquoted?
  dsimp only
  rw [htake, hdrop, hfold, if_pos]
  have hfree : reservedWords.contains (.ofList (d :: rest)) = false := by
    rwa [Bool.eq_false_iff, ne_eq, List.contains_iff_mem]
  rw [hfree]
  exact (Bool.and_eq_true_iff ..).2 ⟨hfirst, rfl⟩

theorem isUnquoted_takeWhile (h : text.head?.any (isFirst wide) = true) :
    isUnquoted wide (text.takeWhile (isInner wide)) = true := by
  cases text with
  | nil => cases h
  | cons d rest =>
    have hfirst : isFirst wide d = true := h
    have hinner : isInner wide d = true := by simp [isInner, hfirst]
    rw [List.takeWhile_cons_of_pos hinner]
    refine isUnquoted_iff.2 ⟨d, _, rfl, hfirst, ?_⟩
    rw [List.all_cons, hinner, Bool.true_and]
    exact List.all_takeWhile

/-- A text that is read up to its end has the form of an unquoted name. -/
theorem isUnquoted_of_unquoted? {name : List Char}
    (h : unquoted? wide (text ++ behind) = some (name, behind)) : isUnquoted wide text = true := by
  unfold unquoted? at h
  dsimp only at h
  split at h
  · next hstart =>
    obtain ⟨hfirst, -⟩ := (Bool.and_eq_true_iff ..).1 hstart
    have hdrop := (Prod.mk.inj (Option.some.inj h)).2
    have hsplit := List.takeWhile_append_dropWhile (p := isInner wide) (l := text ++ behind)
    rw [hdrop] at hsplit
    have htake := isUnquoted_takeWhile hfirst
    rwa [List.append_cancel_right hsplit] at htake
  · cases h

theorem identifier?_of_ne (h : ∀ rest, text ≠ '"' :: rest) :
    identifier? wide text = unquoted? wide text := by
  unfold identifier?
  split
  · next rest => exact absurd rfl (h rest)
  · rfl

theorem quoteFree_reserved : ∀ w ∈ reservedWords, '"' ∉ w.toList ∧ w.toList ≠ [] := by
  decide +kernel

/-- A name that holds a character of ASCII that ends identifiers is not protected. -/
theorem not_isProtected {name : String} (hbreak : isBreak c = true)
    (hc : c ∈ (normalize name).toList) : ¬IsProtected wide name := by
  have hreserved : (reservedWords.all fun w => w.toList.all (!isBreak ·)) = true := by
    decide +kernel
  rintro (hword | hunquoted)
  · have hword := List.all_eq_true.1 (List.all_eq_true.1 hreserved _ hword) c hc
    rw [hbreak] at hword
    cases hword
  · obtain ⟨-, -, -, -, hinner⟩ := isUnquoted_iff.1 hunquoted
    have hinner := List.all_eq_true.1 hinner c hc
    rw [(isInner_of_isBreak hbreak).1] at hinner
    cases hinner

/-- A name that is written for the target is read as its normalized form exactly if it is
protected. -/
theorem reads_iff (wide : Char → Bool) (name : String) (hbehind : Breaks behind) :
    Reads wide name behind ↔ IsProtected wide name := by
  unfold Reads IsProtected identifier quoteReserved
  by_cases hreserved : normalize name ∈ reservedWords
  · obtain ⟨hfree, hne⟩ := quoteFree_reserved _ hreserved
    rw [if_pos (List.contains_iff_mem.2 hreserved)]
    refine iff_of_true ?_ (.inl hreserved)
    have hread := quoted?_append hfree hbehind
    simp [identifier?, hread, hne]
  · rw [if_neg (mt List.contains_iff_mem.1 hreserved)]
    constructor
    · intro h
      refine .inr ?_
      by_cases hquote : ∃ rest, (normalize name).toList ++ behind = '"' :: rest
      · obtain ⟨rest, hrest⟩ := hquote
        rw [hrest] at h
        have hlength := length_quoted? (Option.eq_some_of_filter_eq_some h)
        have hwhole := congrArg List.length hrest
        simp only [List.length_append, List.length_cons] at hwhole
        omega
      · rw [identifier?_of_ne fun rest hrest => hquote ⟨rest, hrest⟩] at h
        exact isUnquoted_of_unquoted? h
    · rintro (h | h)
      · exact absurd h hreserved
      · have hquote : ∀ rest, (normalize name).toList ++ behind ≠ '"' :: rest := by
          obtain ⟨d, more, htext, hfirst, -⟩ := isUnquoted_iff.1 h
          rw [htext]
          rintro rest hrest
          obtain ⟨rfl, -⟩ := List.cons.inj hrest
          exact absurd hfirst (by simp [isFirst, isLetter])
        rw [identifier?_of_ne hquote]
        exact unquoted?_append h (fun d hd => (isNormal_normalize name d hd).1)
          (by rwa [String.ofList_toList]) hbehind

end SchemaTransfer.Token
