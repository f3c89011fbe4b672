import SchemaTransfer.Encoding.Utf16
import SchemaTransfer.Proofs.Encoding.Utf8

/-!
# UTF-16 read back

A text is written in units of two bytes: one for a character below 65536, and a pair of surrogates
for any other. As no character is a surrogate, the decoder never takes the first unit of a pair for
a character, nor a character for half of a pair.
-/
namespace SchemaTransfer.Encoding.Utf16

/-- The units of a character. -/
def units (c : Char) : List Nat :=
  if c.toNat < 0x10000 then [c.toNat]
  else [0xd800 + (c.toNat - 0x10000) / 0x400, 0xdc00 + (c.toNat - 0x10000) % 0x400]

/-- The two bytes of a unit. -/
def bytesOf : Order → Nat → List UInt8
  | .little, u => [UInt8.ofNat u, UInt8.ofNat (u / 256)]
  | .big, u => [UInt8.ofNat (u / 256), UInt8.ofNat u]

/-- The bytes of a text. -/
def encode (o : Order) (text : List Char) : List UInt8 := (text.flatMap units).flatMap (bytesOf o)

@[simp]
theorem encode_nil (o : Order) : encode o [] = [] := rfl

theorem encode_cons (o : Order) (c : Char) (text : List Char) :
    encode o (c :: text) = (units c).flatMap (bytesOf o) ++ encode o text := by
  rw [encode, List.flatMap_cons, List.flatMap_append]
  rfl

theorem bytesOf_eq {u : Nat} (h : u < 0x10000) (o : Order) :
    ∃ a b, bytesOf o u = [a, b] ∧ unit o a b = u := by
  cases o with
  | little =>
    refine ⟨_, _, rfl, ?_⟩
    rw [unit, UInt8.toNat_ofNat', UInt8.toNat_ofNat']
    omega
  | big =>
    refine ⟨_, _, rfl, ?_⟩
    rw [unit, UInt8.toNat_ofNat', UInt8.toNat_ofNat']
    omega

theorem isHigh_iff (u : Nat) : isHigh u = true ↔ 0xd800 ≤ u ∧ u < 0xdc00 := by
  rw [isHigh, Bool.and_eq_true, decide_eq_true_eq, decide_eq_true_eq]

theorem isLow_iff (u : Nat) : isLow u = true ↔ 0xdc00 ≤ u ∧ u < 0xe000 := by
  rw [isLow, Bool.and_eq_true, decide_eq_true_eq, decide_eq_true_eq]

theorem pair_surrogates {c : Char} (h : 0x10000 ≤ c.toNat) :
    pair (0xd800 + (c.toNat - 0x10000) / 0x400) (0xdc00 + (c.toNat - 0x10000) % 0x400) = c := by
  have hvalue : 0x10000 + (0xd800 + (c.toNat - 0x10000) / 0x400 - 0xd800) * 0x400 +
      (0xdc00 + (c.toNat - 0x10000) % 0x400 - 0xdc00) = c.toNat := by omega
  rw [pair, hvalue, Char.ofNat_toNat]

/-- The bytes of a character are read as that character. -/
theorem decodeFrom_append (o : Order) (p : Nat) (c : Char) (rest : List UInt8) :
    ∃ q, decodeFrom o p ((units c).flatMap (bytesOf o) ++ rest) =
      (decodeFrom o q rest).map (c :: ·) := by
  have hvalid := Utf8.isValidChar_toNat c
  rw [units]
  split
  · next hsmall =>
    obtain ⟨a, b, hbytes, hunit⟩ := bytesOf_eq hsmall o
    have hhigh : ¬ isHigh c.toNat = true := by
      rw [isHigh_iff]
      omega
    have hlow : ¬ isLow c.toNat = true := by
      rw [isLow_iff]
      omega
    refine ⟨p + 2, ?_⟩
    rw [List.flatMap_singleton, hbytes, List.cons_append, List.cons_append, List.nil_append,
      decodeFrom.eq_def]
    simp only [hunit]
    rw [if_neg hhigh, if_neg hlow, Char.ofNat_toNat]
  · next hlarge =>
    have hpair := pair_surrogates (Nat.not_lt.1 hlarge)
    generalize hhi : 0xd800 + (c.toNat - 0x10000) / 0x400 = high at hpair
    generalize hlo : 0xdc00 + (c.toNat - 0x10000) % 0x400 = low at hpair
    obtain ⟨a, b, hfirst, hunit⟩ := bytesOf_eq (u := high) (by omega) o
    obtain ⟨a', b', hsecond, hunit'⟩ := bytesOf_eq (u := low) (by omega) o
    have hhigh : isHigh high = true := (isHigh_iff _).2 (by omega)
    have hlow : isLow low = true := (isLow_iff _).2 (by omega)
    refine ⟨p + 4, ?_⟩
    rw [List.flatMap_cons, List.flatMap_singleton, hfirst, hsecond, decodeFrom.eq_def]
    simp only [List.cons_append, List.nil_append, hunit, hunit']
    rw [if_pos hhigh, if_pos hlow, hpair]

theorem decodeFrom_encode (o : Order) (p : Nat) (text : List Char) :
    decodeFrom o p (encode o text) = .ok text := by
  induction text generalizing p with
  | nil => rfl
  | cons c text ih =>
    obtain ⟨q, hq⟩ := decodeFrom_append o p c (encode o text)
    rw [encode_cons, hq, ih]
    rfl

/-- The mark that announces an order. -/
def markOf : Order → List UInt8
  | .little => littleMark
  | .big => bigMark

theorem decodeMarked_mark (o : Order) (text : List Char) :
    decodeMarked (markOf o ++ encode o text) = .ok text := by
  cases o with
  | little => exact decodeFrom_encode .little 2 text
  | big => exact decodeFrom_encode .big 2 text

end SchemaTransfer.Encoding.Utf16
