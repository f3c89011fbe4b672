import SchemaTransfer.Proofs.Names.Requests
import SchemaTransfer.Proofs.Target.Identifier

/-!
# Names in normalized form

A name that is given out is in normalized form: it is the wanted name, or the wanted name with
something behind it that keeps it in that form. In the second case it is no reserved word, and it
does not end in a double quote. So different names that are given out are written differently,
unless the names that were asked for are written alike.
-/
namespace SchemaTransfer
open Unicode

/-- A name in the form under which it is known in the target. -/
def IsNormal (name : String) : Prop := ∀ c ∈ name.toList, Casing.IsLower c ∧ c ≠ '-'

theorem toList_normalize (name : String) :
    (normalize name).toList = lower (name.toList.filter (· != '-')) := by
  rw [normalize, lowerCase, withoutDashes, String.toList_ofList, String.toList_ofList]

theorem isNormal_normalize (name : String) : IsNormal (normalize name) := by
  intro c hc
  rw [toList_normalize] at hc
  refine ⟨Casing.isLower_of_mem_lowerFrom c hc, ?_⟩
  rintro rfl
  have hdash := (List.mem_filter.1 (Casing.mem_of_mem_lowerFrom (by decide) hc)).2
  exact absurd hdash (by decide)

theorem normalize_of_isNormal {name : String} (h : IsNormal name) : normalize name = name := by
  have hfilter : name.toList.filter (· != '-') = name.toList :=
    List.filter_eq_self.2 fun c hc => by simpa using (h c hc).2
  refine String.toList_inj.1 ?_
  rw [toList_normalize, hfilter]
  exact Casing.lowerFrom_of_isLower fun c hc => (h c hc).1

theorem normalize_normalize (name : String) : normalize (normalize name) = normalize name :=
  normalize_of_isNormal (isNormal_normalize name)

theorem IsNormal.append {a b : String} (ha : IsNormal a) (hb : IsNormal b) : IsNormal (a ++ b) := by
  intro c hc
  rw [String.toList_append, List.mem_append] at hc
  exact hc.elim (ha c) (hb c)

/-- A text that makes a normalized name a different one, which is written without quotes. -/
structure IsSuffix (suffix : String) : Prop where
  normal : IsNormal suffix
  ne_empty : suffix ≠ ""
  unquoted : suffix.toList.getLast? ≠ some '"'
  unreserved : ∀ word ∈ reservedWords, ¬ suffix.toList <:+ word.toList

/-- An ASCII character that a normalized name may hold. -/
def isPlain (c : Char) : Bool := c.toNat < 128 && !c.isUpper && c != '-'

theorem isNormal_of_isPlain {name : String} (h : name.toList.all isPlain = true) :
    IsNormal name := by
  have hlower : ∀ n < 128, isPlain (Char.ofNat n) = true → Casing.IsLower (Char.ofNat n) := by
    decide +kernel
  intro c hc
  have hplain := List.all_eq_true.1 h c hc
  obtain ⟨⟨hascii, -⟩, hdash⟩ : (c.toNat < 128 ∧ c.isUpper = false) ∧ c ≠ '-' := by
    simpa [isPlain] using hplain
  refine ⟨?_, hdash⟩
  rw [← Char.ofNat_toNat c] at hplain ⊢
  exact hlower c.toNat hascii hplain

theorem not_suffix_reserved {suffix : List Char}
    (h : (reservedWords.all fun word => !suffix.isSuffixOf word.toList) = true) :
    ∀ word ∈ reservedWords, ¬ suffix <:+ word.toList := by
  intro word hword hsuffix
  have hword := List.all_eq_true.1 h word hword
  rw [List.isSuffixOf_iff_suffix.2 hsuffix] at hword
  cases hword

theorem isSuffix_primaryKey : IsSuffix "_pk" :=
  ⟨isNormal_of_isPlain (by decide), by decide, by decide, not_suffix_reserved (by decide +kernel)⟩

theorem isSuffix_unique : IsSuffix "_unique" :=
  ⟨isNormal_of_isPlain (by decide), by decide, by decide, not_suffix_reserved (by decide +kernel)⟩

theorem isPlain_digit {c : Char} (h : c.isDigit = true) : isPlain c = true := by
  have hdigits : ∀ n < 128, (Char.ofNat n).isDigit = true → isPlain (Char.ofNat n) = true := by
    decide +kernel
  have hbound : c.toNat ≤ '9'.toNat := (Char.isDigit_iff_toNat.1 h).2
  have hnine : '9'.toNat < 128 := by decide
  rw [← Char.ofNat_toNat c] at h ⊢
  exact hdigits c.toNat (by omega) h

theorem isSuffix_repr (n : ℕ) : IsSuffix n.repr := by
  have hdigit : ∀ c ∈ n.repr.toList, c.isDigit = true := by
    intro c hc
    rw [Nat.toList_repr] at hc
    exact Nat.isDigit_of_mem_toDigits (by decide) (by decide) hc
  have hne : n.repr.toList ≠ [] := by
    rw [ne_eq, String.toList_eq_nil_iff]
    exact Nat.repr_ne_empty
  obtain ⟨c, hc⟩ := Option.ne_none_iff_exists'.1 (mt List.getLast?_eq_none_iff.1 hne)
  have hcdigit := hdigit c (List.mem_of_getLast? hc)
  refine ⟨isNormal_of_isPlain (List.all_eq_true.2 fun d hd => isPlain_digit (hdigit d hd)),
    Nat.repr_ne_empty, ?_, ?_⟩
  · rw [hc]
    rintro hquote
    obtain rfl := Option.some.inj hquote
    exact absurd hcdigit (by decide)
  · have hreserved : (reservedWords.all fun word => word.toList.all (!·.isDigit)) = true := by
      decide +kernel
    intro word hword hsuffix
    have hmem := hsuffix.mem (List.mem_of_getLast? hc)
    have hnot := List.all_eq_true.1 (List.all_eq_true.1 hreserved word hword) c hmem
    rw [hcdigit] at hnot
    cases hnot

namespace Names

theorem numbered_eq (isTaken : String → Bool) (base : String) (bound : ℕ) :
    numbered isTaken base bound = base ∨
      ∃ k : ℕ, numbered isTaken base bound = base ++ (k + 1).repr := by
  unfold numbered
  cases hfind : ((List.range bound).map fun k => base ++ (k + 1).repr).find? fun c =>
      !isTaken c with
  | none => exact .inl rfl
  | some name =>
    obtain ⟨k, -, rfl⟩ := List.mem_map.1 (List.mem_of_find?_eq_some hfind)
    exact .inr ⟨k, rfl⟩

theorem closest_eq (taken : Keyed String) (wanted kind : String) :
    closest taken wanted kind = wanted ∨
      ∃ suffix, closest taken wanted kind = wanted ++ suffix ∧
        (suffix = "_" ++ lowerCase kind ∨ ∃ k : ℕ, suffix = (k + 1).repr) := by
  fun_cases closest taken wanted kind with
  | case1 => exact .inl rfl
  | case2 => exact .inr ⟨_, String.append_assoc, .inl rfl⟩
  | case3 =>
    obtain hbase | ⟨k, hk⟩ := numbered_eq taken.contains wanted (taken.size + 1)
    · exact .inl hbase
    · exact .inr ⟨_, hk, .inr ⟨k, rfl⟩⟩

end Names

/-- The name of an answer is the wanted one, or has something behind it that makes it another. -/
def Answer.IsClose (a : Answer) : Prop :=
  a.name = normalize a.desired ∨ ∃ suffix, IsSuffix suffix ∧ a.name = normalize a.desired ++ suffix

theorem Names.serve_isClose (n : Names) {r : Request} (h : IsSuffix ("_" ++ lowerCase r.kind)) :
    (n.serve r).1.IsClose := by
  have hname : (n.serve r).1.name =
      closest (n.settle.taken r.schema) (normalize r.desired) r.kind := by
    unfold serve resolve
    dsimp only
    split <;> rfl
  rcases closest_eq (n.settle.taken r.schema) (normalize r.desired) r.kind with
    hsame | ⟨suffix, hsuffix, rfl | ⟨k, rfl⟩⟩
  · exact .inl (hname.trans hsame)
  · exact .inr ⟨_, h, hname.trans hsuffix⟩
  · exact .inr ⟨_, isSuffix_repr (k + 1), hname.trans hsuffix⟩

namespace Answer

variable {a b : Answer}

theorem IsClose.normal (h : a.IsClose) : IsNormal a.name := by
  obtain hsame | ⟨suffix, hsuffix, hname⟩ := h
  · rw [hsame]
    exact isNormal_normalize _
  · rw [hname]
    exact (isNormal_normalize _).append hsuffix.normal

/-- A reserved word, or a name that ends in a double quote, can only be what was asked for. -/
theorem IsClose.eq_normalize (h : a.IsClose)
    (hodd : a.name ∈ reservedWords ∨ a.name.toList.getLast? = some '"') :
    a.name = normalize a.desired := by
  obtain hsame | ⟨suffix, hsuffix, hname⟩ := h
  · exact hsame
  · rw [hname, String.toList_append] at hodd
    rcases hodd with hreserved | hquote
    · refine absurd ?_ (hsuffix.unreserved _ hreserved)
      rw [String.toList_append]
      exact List.suffix_append _ _
    · have hne : suffix.toList ≠ [] := mt String.toList_eq_nil_iff.1 hsuffix.ne_empty
      rw [List.getLast?_append_of_ne_nil _ hne] at hquote
      exact absurd hquote hsuffix.unquoted

end Answer

theorem eq_or_of_quoteReserved_eq {x y : String} (h : quoteReserved x = quoteReserved y) :
    x = y ∨ x ∈ reservedWords ∧ y.toList.getLast? = some '"' ∨
      y ∈ reservedWords ∧ x.toList.getLast? = some '"' := by
  have hlast (z : String) : ("\"" ++ z ++ "\"").toList.getLast? = some '"' := by
    rw [String.toList_append]
    exact List.getLast?_concat
  unfold quoteReserved at h
  split at h <;> split at h
  · exact .inl ((String.append_right_inj _).1 ((String.append_left_inj _).1 h))
  · next hx _ =>
    rw [← h]
    exact .inr (.inl ⟨List.contains_iff_mem.1 hx, hlast x⟩)
  · next _ hy =>
    rw [h]
    exact .inr (.inr ⟨List.contains_iff_mem.1 hy, hlast y⟩)
  · exact .inl h

theorem Answer.identifier_ne {a b : Answer} (ha : a.IsClose) (hb : b.IsClose)
    (hname : a.name ≠ b.name) (hdesired : identifier a.desired ≠ identifier b.desired) :
    identifier a.name ≠ identifier b.name := by
  intro h
  have hwritten : quoteReserved a.name = quoteReserved b.name := by
    rwa [identifier, identifier, normalize_of_isNormal ha.normal,
      normalize_of_isNormal hb.normal] at h
  have hkept : a.name = normalize a.desired ∧ b.name = normalize b.desired := by
    rcases eq_or_of_quoteReserved_eq hwritten with hsame | ⟨hx, hy⟩ | ⟨hy, hx⟩
    · exact absurd hsame hname
    · exact ⟨ha.eq_normalize (.inl hx), hb.eq_normalize (.inr hy)⟩
    · exact ⟨ha.eq_normalize (.inr hx), hb.eq_normalize (.inl hy)⟩
  rw [hkept.1, hkept.2] at hwritten
  exact hdesired hwritten

namespace Names

theorem forall_mem_serveAll {n : Names} {rs : List Request} {p : Answer → Prop}
    (h : ∀ m : Names, ∀ r ∈ rs, p (m.serve r).1) : ∀ a ∈ (n.serveAll rs).1, p a := by
  induction rs generalizing n with
  | nil => exact List.forall_mem_nil p
  | cons r rs ih =>
    rw [serveAll]
    exact List.forall_mem_cons.2
      ⟨h n r List.mem_cons_self, ih fun m r hr => h m r (List.mem_cons_of_mem _ hr)⟩

/-- What is given out was free before. -/
theorem kind?_eq_none_of_mem_serveAll {n : Names} {rs : List Request} {a : Answer}
    (h : a ∈ (n.serveAll rs).1) : n.settle.kind? a.place a.name = none := by
  induction rs generalizing n with
  | nil => exact absurd h List.not_mem_nil
  | cons r rs ih =>
    rw [serveAll] at h
    rcases List.mem_cons.1 h with rfl | h
    · exact n.serve_free r
    · have hlater := ih h
      rw [settle_eq_self (n.serve_pending r)] at hlater
      cases hkind : n.settle.kind? a.place a.name with
      | none => rfl
      | some kind =>
        rw [kind?_serve_of_some r hkind] at hlater
        cases hlater

/-- No name is given out twice in one schema. -/
theorem serveAll_pairwise (n : Names) (rs : List Request) :
    (n.serveAll rs).1.Pairwise fun a b => a.place = b.place → a.name ≠ b.name := by
  induction rs generalizing n with
  | nil => exact .nil
  | cons r rs ih =>
    rw [serveAll]
    refine List.pairwise_cons.2 ⟨fun b hb hplace hname => ?_, ih _⟩
    have hfree := kind?_eq_none_of_mem_serveAll hb
    rw [settle_eq_self (n.serve_pending r), ← hplace, ← hname, kind?_serve_self] at hfree
    cases hfree

end Names

end SchemaTransfer
