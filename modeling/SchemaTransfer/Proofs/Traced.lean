import SchemaTransfer.Load.Reading
import SchemaTransfer.Proofs.Dump.Fragment
import SchemaTransfer.Target.TypeName

/-!
# Where failures without a text come from

Two failures have no text of their own: a number that is too long, and a size in an unknown unit.
A statement fails with the one only if a very long row of digits stands on one of its lines, and
with the other only if the Kelvin sign does, which passes for the unit K where it is recognized and
not where its multiple is looked up.
-/
namespace SchemaTransfer
open Unicode Scan

/-- A row of digits that is too long for a numeral. -/
def LongRow (cs : List Char) : Prop :=
  ∃ row, row <:+: cs ∧ (∀ c ∈ row, isDigit c = true) ∧ Numeral.maxDigits < row.length

def kelvinSign : Char := '\u212a'

/-- What the lines of a failing statement hold. Quotes are left out, since a distinct type is read
without them. -/
def Failure.TracedTo (lines : List (List Char)) : Failure → Prop
  | .longNumber => ∃ line ∈ lines, LongRow (line.filter (· != '"'))
  | .unknownUnit => ∃ line ∈ lines, kelvinSign ∈ line
  | _ => True

theorem LongRow.mono {xs ys : List Char} (h : LongRow xs) (hsub : xs <:+: ys) : LongRow ys := by
  obtain ⟨row, hrow, hdigits, hlong⟩ := h
  exact ⟨row, hrow.trans hsub, hdigits, hlong⟩

/-- Digits are no quotes. -/
theorem LongRow.unquoted {cs : List Char} (h : LongRow cs) : LongRow (cs.filter (· != '"')) := by
  obtain ⟨row, hrow, hdigits, hlong⟩ := h
  have hself : row.filter (· != '"') = row := by
    refine List.filter_eq_self.2 fun c hc => ?_
    simpa using ne_of_test (hdigits c hc) (by decide : isDigit '"' = false)
  exact ⟨row, hself ▸ hrow.filter _, hdigits, hlong⟩

theorem Failure.TracedTo.mono {xs ys : List (List Char)} (h : ∀ x ∈ xs, ∃ y ∈ ys, x <:+: y)
    {failure : Failure} (htraced : failure.TracedTo xs) : failure.TracedTo ys := by
  cases failure with
  | longNumber =>
    obtain ⟨x, hx, hlong⟩ := htraced
    obtain ⟨y, hy, hsub⟩ := h x hx
    exact ⟨y, hy, hlong.mono (hsub.filter _)⟩
  | unknownUnit =>
    obtain ⟨x, hx, hmem⟩ := htraced
    obtain ⟨y, hy, hsub⟩ := h x hx
    exact ⟨y, hy, hsub.subset hmem⟩
  | _ => trivial

theorem Failure.TracedTo.of_isInfix {x y : List Char} (h : x <:+: y) {failure : Failure}
    (htraced : failure.TracedTo [x]) : failure.TracedTo [y] := by
  refine htraced.mono fun z hz => ⟨y, List.mem_singleton_self y, ?_⟩
  rwa [List.mem_singleton.1 hz]

theorem Failure.TracedTo.of_unquoted {line : List Char} {failure : Failure}
    (h : failure.TracedTo [line.filter (· != '"')]) : failure.TracedTo [line] := by
  cases failure with
  | longNumber =>
    obtain ⟨x, hx, hlong⟩ := h
    rw [List.mem_singleton.1 hx, List.filter_filter] at hlong
    exact ⟨line, List.mem_singleton_self line, by simpa using hlong⟩
  | unknownUnit =>
    obtain ⟨x, hx, hmem⟩ := h
    rw [List.mem_singleton.1 hx] at hmem
    exact ⟨line, List.mem_singleton_self line, List.mem_of_mem_filter hmem⟩
  | _ => trivial

/-- If a result is a failure, it can be traced to the lines. -/
def Traced {α : Type} (lines : List (List Char)) (x : Except Failure α) : Prop :=
  ∀ failure, x = .error failure → failure.TracedTo lines

namespace Traced

variable {α β : Type} {lines : List (List Char)}

theorem ok (a : α) : Traced lines (.ok a) := by
  intro failure h
  cases h

theorem error {failure : Failure} (h : failure.TracedTo lines) :
    Traced lines (.error failure : Except Failure α) := by
  intro other heq
  rwa [← Except.error.inj heq]

theorem malformed (cause : Malformed) :
    Traced lines (.error (.malformed cause) : Except Failure α) := error trivial

theorem unrecognized (cause : Unrecognized) :
    Traced lines (.error (.unrecognized cause) : Except Failure α) := error trivial

theorem bind {x : Except Failure α} {f : α → Except Failure β} (hx : Traced lines x)
    (hf : ∀ a, Traced lines (f a)) : Traced lines (x >>= f) := by
  cases x with
  | ok a => exact hf a
  | error failure => exact error (hx failure rfl)

theorem map {x : Except Failure α} (f : α → β) (hx : Traced lines x) :
    Traced lines (x.map f) := by
  cases x with
  | ok a => exact ok (f a)
  | error failure => exact error (hx failure rfl)

theorem mono {more : List (List Char)} (h : ∀ x ∈ lines, ∃ y ∈ more, x <:+: y)
    {x : Except Failure α} (hx : Traced lines x) : Traced more x :=
  fun failure hfailure => (hx failure hfailure).mono h

theorem of_mem {line : List Char} (hline : line ∈ lines) {x : Except Failure α}
    (hx : Traced [line] x) : Traced lines x := by
  refine hx.mono fun y hy => ?_
  rw [List.mem_singleton.1 hy]
  exact ⟨line, hline, List.infix_rfl⟩

theorem of_tail {line : List Char} {x : Except Failure α} (hx : Traced lines x) :
    Traced (line :: lines) x :=
  hx.mono fun y hy => ⟨y, List.mem_cons_of_mem _ hy, List.infix_rfl⟩

end Traced

namespace Numeral

theorem longRow_of_natural? {row cs : List Char} (hrow : row <:+: cs)
    (hdigits : ∀ c ∈ row, isDigit c = true) (h : natural? row = none) : LongRow cs := by
  have hlong : ¬row.length ≤ maxDigits := by
    intro hshort
    rw [natural?, if_pos hshort] at h
    cases h
  exact ⟨row, hrow, hdigits, Nat.lt_of_not_le hlong⟩

theorem longRow_of_integer? {line v : List Char} (hv : NumeralOn line v)
    (h : integer? v = none) : LongRow line := by
  obtain ⟨⟨ds, hds, hdigits⟩, hsub⟩ := hv
  rcases hds with rfl | rfl
  · unfold integer? at h
    split at h
    · next ds =>
      have hminus : isDigit '-' = true := hdigits '-' List.mem_cons_self
      cases hminus
    · exact longRow_of_natural? hsub hdigits (Option.map_eq_none_iff.1 h)
  · have hrow : ds <:+: line := (List.suffix_cons '-' ds).isInfix.trans hsub
    refine longRow_of_natural? hrow hdigits ?_
    cases hn : natural? ds with
    | none => rfl
    | some n =>
      rw [integer?, hn] at h
      cases h

end Numeral

theorem traced_integer {line v : List Char} (h : NumeralOn line v) :
    Traced [line] (Load.integer v) := by
  unfold Load.integer
  split
  · exact .ok _
  · next hnone =>
    exact .error ⟨line, List.mem_singleton_self line,
      (Numeral.longRow_of_integer? h hnone).unquoted⟩

namespace TypeName

/-- The Kelvin sign is the only unit without a multiple. -/
theorem eq_kelvinSign {c : Char} (hunit : isUnit c = true) (h : multiplier? (some c) = none) :
    c = kelvinSign := by
  by_cases hascii : c.toNat < 128
  · have hall : ∀ n < 128, isUnit (Char.ofNat n) = true →
        (multiplier? (some (Char.ofNat n))).isSome = true := by decide +kernel
    have hsome := hall c.toNat hascii (by rwa [Char.ofNat_toNat])
    rw [Char.ofNat_toNat, h] at hsome
    cases hsome
  · have hfold : Casing.fold c = 'k' ∨ Casing.fold c = 'm' ∨ Casing.fold c = 'g' := by
      simpa [isUnit, or_assoc] using hunit
    have hself {d : Char} (hd : d.toNat < 128) : c ≠ d := by
      rintro rfl
      exact hascii hd
    have hk : c ≠ 'k' := hself (by decide)
    have hm : c ≠ 'm' := hself (by decide)
    have hg : c ≠ 'g' := hself (by decide)
    unfold Casing.fold at hfold
    simp only [if_neg hascii] at hfold
    split at hfold
    · simp at hfold
    · split at hfold
      · simp at hfold
      · split at hfold
        · next hsign =>
          rw [← Char.ofNat_toNat c, beq_iff_eq.1 hsign]
          rfl
        · simp [hk, hm, hg] at hfold

theorem size?_eq_some {cs digits : List Char} {unit : Option Char}
    (h : size? cs = some (digits, unit)) :
    digits <:+: cs ∧ (∀ c ∈ digits, isDigit c = true) ∧ ∀ c ∈ unit, isUnit c = true ∧ c ∈ cs := by
  simp only [size?, Option.bind_eq_bind, Option.bind_eq_some_iff] at h
  obtain ⟨cs₁, hopen, ⟨ds, cs₂⟩, hdigits, h⟩ := h
  have hcs₁ := ((trimLeft_isSuffix cs₁).trans (literal?_isSuffix hopen)).trans
    (trimLeft_isSuffix cs)
  have hcs₂ := (trimLeft_isSuffix cs₂).trans ((digits?_isSuffix hdigits).trans hcs₁)
  obtain ⟨hfront, hall⟩ := digits?_eq_some hdigits
  have hds : ds <:+: cs := by
    refine List.IsInfix.trans ?_ hcs₁.isInfix
    rw [hfront]
    exact (List.prefix_append ds cs₂).isInfix
  dsimp only at h
  split at h
  · cases h
  · next c rest htrim =>
    obtain ⟨cs₃, -, heq⟩ := Option.bind_eq_some_iff.1 h
    split at heq
    · next hc =>
      cases heq
      refine ⟨hds, hall, fun d hd => ?_⟩
      obtain rfl : c = d := Option.some.inj hd
      exact ⟨hc, hcs₂.subset (htrim ▸ List.mem_cons_self)⟩
    · cases heq
      exact ⟨hds, hall, fun d hd => by cases hd⟩

theorem traced_characterObject {cs digits : List Char} {unit : Option Char} (name : String)
    (h : size? cs = some (digits, unit)) : Traced [cs] (characterObject name digits unit) := by
  obtain ⟨hsub, hdigits, hunit⟩ := size?_eq_some h
  unfold characterObject
  cases hn : Numeral.natural? digits with
  | none =>
    exact .error ⟨cs, List.mem_singleton_self cs,
      (Numeral.longRow_of_natural? hsub hdigits hn).unquoted⟩
  | some n =>
    cases hk : multiplier? unit with
    | none =>
      cases unit with
      | none => cases hk
      | some c =>
        obtain ⟨hc, hmem⟩ := hunit c rfl
        rw [eq_kelvinSign hc hk] at hmem
        exact .error ⟨cs, List.mem_singleton_self cs, hmem⟩
    | some k =>
      dsimp only
      split <;> exact .ok _

/-- A type that cannot be converted holds a long row of digits or a Kelvin sign. -/
theorem traced_convert (type : List Char) : Traced [type] (convert type) := by
  unfold convert
  dsimp only
  split
  · exact .ok _
  · split
    · next digits unit hsize =>
      obtain ⟨rest, hword, hsize⟩ := Option.bind_eq_some_iff.1 hsize
      have hrest : rest <:+: type := (keyword?_isSuffix hword).isInfix.trans (trim_isInfix type)
      exact fun failure h => (traced_characterObject _ hsize failure h).of_isInfix hrest
    · split
      · exact .ok _
      · split
        · exact .ok _
        · split <;> exact .ok _

end TypeName

end SchemaTransfer
