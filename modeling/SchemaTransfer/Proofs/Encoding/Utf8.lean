import Mathlib
import SchemaTransfer.Encoding.Utf8
import SchemaTransfer.Proofs.Except

/-!
# UTF-8 read back

`IsChar` lists the byte sequences that stand for one character: shortest forms only, and no
surrogates. They are the sequences that the standard encoder writes, and the decoder takes them one
after the other. So a byte string can be decoded exactly if it is the encoding of a text, and then
that text is what it is decoded to.
-/
namespace SchemaTransfer.Encoding.Utf8

/-- The bytes of a text. -/
def encode (text : List Char) : List UInt8 := text.flatMap String.utf8EncodeChar

@[simp]
theorem encode_nil : encode [] = [] := rfl

theorem encode_cons (c : Char) (text : List Char) :
    encode (c :: text) = String.utf8EncodeChar c ++ encode text := rfl

/-- A character and the bytes that stand for it. -/
inductive IsChar : List UInt8 → Char → Prop
  | one {a : UInt8} (ha : a.toNat < 0x80) : IsChar [a] (Char.ofNat a.toNat)
  | two {a b : UInt8} (ha : 0xc2 ≤ a.toNat) (ha' : a.toNat < 0xe0) (hb : isTail b = true) :
      IsChar [a, b] (two a b)
  | three {a b c : UInt8} (ha : 0xe0 ≤ a.toNat) (ha' : a.toNat < 0xf0)
      (hb : isSecondOfThree a b = true) (hc : isTail c = true) : IsChar [a, b, c] (three a b c)
  | four {a b c d : UInt8} (ha : 0xf0 ≤ a.toNat) (ha' : a.toNat < 0xf5)
      (hb : isSecondOfFour a b = true) (hc : isTail c = true) (hd : isTail d = true) :
      IsChar [a, b, c, d] (four a b c d)

theorem isTail_iff (b : UInt8) : isTail b = true ↔ 0x80 ≤ b.toNat ∧ b.toNat < 0xc0 := by
  simp only [isTail, Bool.and_eq_true, decide_eq_true_eq, UInt8.le_iff_toNat_le,
    UInt8.reduceToNat]
  omega

theorem isSecondOfThree_iff (a b : UInt8) : isSecondOfThree a b = true ↔
    (0x80 ≤ b.toNat ∧ b.toNat < 0xc0) ∧ (a.toNat = 0xe0 → 0xa0 ≤ b.toNat) ∧
      (a.toNat = 0xed → b.toNat < 0xa0) := by
  simp only [isSecondOfThree, Bool.and_eq_true, isTail_iff, UInt8.lt_iff_toNat_lt,
    UInt8.reduceToNat]
  split
  · simp only [bne_iff_ne, ne_eq, ← UInt8.toNat_inj, UInt8.reduceToNat]
    omega
  · simp only [bne_iff_ne, ne_eq, ← UInt8.toNat_inj, UInt8.reduceToNat]
    omega

theorem isSecondOfFour_iff (a b : UInt8) : isSecondOfFour a b = true ↔
    (0x80 ≤ b.toNat ∧ b.toNat < 0xc0) ∧ (a.toNat = 0xf0 → 0x90 ≤ b.toNat) ∧
      (a.toNat = 0xf4 → b.toNat < 0x90) := by
  simp only [isSecondOfFour, Bool.and_eq_true, isTail_iff, UInt8.lt_iff_toNat_lt,
    UInt8.reduceToNat]
  split
  · simp only [bne_iff_ne, ne_eq, ← UInt8.toNat_inj, UInt8.reduceToNat]
    omega
  · simp only [bne_iff_ne, ne_eq, ← UInt8.toNat_inj, UInt8.reduceToNat]
    omega

theorem toNat_ofNat {n : Nat} (h : n.isValidChar) : (Char.ofNat n).toNat = n := by
  rw [Char.toNat_ofNat, if_pos h]

theorem isValidChar_toNat (c : Char) : c.toNat < 0xd800 ∨ 0xdfff < c.toNat ∧ c.toNat < 0x110000 :=
  c.valid

theorem eq_ofNat_iff {a : UInt8} {n : Nat} : a = UInt8.ofNat n ↔ a.toNat = n % 256 := by
  rw [← UInt8.toNat_inj, UInt8.toNat_ofNat']

section Encoder

variable {c : Char}

theorem utf8EncodeChar_one (h : c.toNat < 0x80) :
    String.utf8EncodeChar c = [UInt8.ofNat c.toNat] := by
  rw [String.utf8EncodeChar, if_pos (by rw [Char.toNat_val]; omega), Char.toNat_val]

theorem utf8EncodeChar_two (h : 0x80 ≤ c.toNat) (h' : c.toNat < 0x800) :
    String.utf8EncodeChar c =
      [UInt8.ofNat (c.toNat / 64 % 32 + 0xc0), UInt8.ofNat (c.toNat % 64 + 0x80)] := by
  rw [String.utf8EncodeChar, if_neg (by rw [Char.toNat_val]; omega),
    if_pos (by rw [Char.toNat_val]; omega), Char.toNat_val]

theorem utf8EncodeChar_three (h : 0x800 ≤ c.toNat) (h' : c.toNat < 0x10000) :
    String.utf8EncodeChar c =
      [UInt8.ofNat (c.toNat / 4096 % 16 + 0xe0), UInt8.ofNat (c.toNat / 64 % 64 + 0x80),
        UInt8.ofNat (c.toNat % 64 + 0x80)] := by
  rw [String.utf8EncodeChar, if_neg (by rw [Char.toNat_val]; omega),
    if_neg (by rw [Char.toNat_val]; omega), if_pos (by rw [Char.toNat_val]; omega),
    Char.toNat_val]

theorem utf8EncodeChar_four (h : 0x10000 ≤ c.toNat) :
    String.utf8EncodeChar c =
      [UInt8.ofNat (c.toNat / 262144 % 8 + 0xf0), UInt8.ofNat (c.toNat / 4096 % 64 + 0x80),
        UInt8.ofNat (c.toNat / 64 % 64 + 0x80), UInt8.ofNat (c.toNat % 64 + 0x80)] := by
  rw [String.utf8EncodeChar, if_neg (by rw [Char.toNat_val]; omega),
    if_neg (by rw [Char.toNat_val]; omega), if_neg (by rw [Char.toNat_val]; omega),
    Char.toNat_val]

end Encoder

theorem IsChar.bytes_eq {bytes : List UInt8} {c : Char} (h : IsChar bytes c) :
    bytes = String.utf8EncodeChar c := by
  cases h with
  | @one a ha =>
    have hvalue : (Char.ofNat a.toNat).toNat = a.toNat := toNat_ofNat (.inl (by omega))
    rw [utf8EncodeChar_one (by omega), hvalue, UInt8.ofNat_toNat]
  | @two a b ha ha' hb =>
    rw [isTail_iff] at hb
    have hvalue : (Utf8.two a b).toNat = a.toNat % 32 * 64 + b.toNat % 64 :=
      toNat_ofNat (.inl (by rw [bits]; omega))
    rw [utf8EncodeChar_two (by omega) (by omega), hvalue]
    simp only [List.cons.injEq, and_true, eq_ofNat_iff]
    omega
  | @three a b c ha ha' hb hc =>
    rw [isSecondOfThree_iff] at hb
    rw [isTail_iff] at hc
    have hvalue : (Utf8.three a b c).toNat =
        (a.toNat % 16 * 64 + b.toNat % 64) * 64 + c.toNat % 64 := by
      refine toNat_ofNat ?_
      simp only [bits, Nat.isValidChar]
      omega
    rw [utf8EncodeChar_three (by omega) (by omega), hvalue]
    simp only [List.cons.injEq, and_true, eq_ofNat_iff]
    omega
  | @four a b c d ha ha' hb hc hd =>
    rw [isSecondOfFour_iff] at hb
    rw [isTail_iff] at hc hd
    have hvalue : (Utf8.four a b c d).toNat =
        ((a.toNat % 8 * 64 + b.toNat % 64) * 64 + c.toNat % 64) * 64 + d.toNat % 64 := by
      refine toNat_ofNat ?_
      simp only [bits, Nat.isValidChar]
      omega
    rw [utf8EncodeChar_four (by omega), hvalue]
    simp only [List.cons.injEq, and_true, eq_ofNat_iff]
    omega

theorem isChar_utf8EncodeChar (c : Char) : IsChar (String.utf8EncodeChar c) c := by
  have hvalid := isValidChar_toNat c
  by_cases h1 : c.toNat < 0x80
  · rw [utf8EncodeChar_one h1]
    have hbyte : (UInt8.ofNat c.toNat).toNat = c.toNat := by rw [UInt8.toNat_ofNat']; omega
    have hone := IsChar.one (a := UInt8.ofNat c.toNat) (by omega)
    rwa [hbyte, Char.ofNat_toNat] at hone
  by_cases h2 : c.toNat < 0x800
  · rw [utf8EncodeChar_two (by omega) h2]
    generalize ha : UInt8.ofNat (c.toNat / 64 % 32 + 0xc0) = a
    generalize hb : UInt8.ofNat (c.toNat % 64 + 0x80) = b
    rw [eq_comm, eq_ofNat_iff] at ha hb
    have hvalue : Utf8.two a b = c := by
      rw [Utf8.two, bits, ← Char.ofNat_toNat c]
      congr 1
      omega
    have htwo := IsChar.two (a := a) (b := b) (by omega) (by omega)
      ((isTail_iff b).2 (by omega))
    rwa [hvalue] at htwo
  by_cases h3 : c.toNat < 0x10000
  · rw [utf8EncodeChar_three (by omega) h3]
    generalize ha : UInt8.ofNat (c.toNat / 4096 % 16 + 0xe0) = a
    generalize hb : UInt8.ofNat (c.toNat / 64 % 64 + 0x80) = b
    generalize hd : UInt8.ofNat (c.toNat % 64 + 0x80) = d
    rw [eq_comm, eq_ofNat_iff] at ha hb hd
    have hvalue : Utf8.three a b d = c := by
      rw [Utf8.three, bits, bits, ← Char.ofNat_toNat c]
      congr 1
      omega
    have hthree := IsChar.three (a := a) (b := b) (c := d) (by omega) (by omega)
      ((isSecondOfThree_iff a b).2 (by omega)) ((isTail_iff d).2 (by omega))
    rwa [hvalue] at hthree
  · rw [utf8EncodeChar_four (by omega)]
    generalize ha : UInt8.ofNat (c.toNat / 262144 % 8 + 0xf0) = a
    generalize hb : UInt8.ofNat (c.toNat / 4096 % 64 + 0x80) = b
    generalize hd : UInt8.ofNat (c.toNat / 64 % 64 + 0x80) = d
    generalize he : UInt8.ofNat (c.toNat % 64 + 0x80) = e
    rw [eq_comm, eq_ofNat_iff] at ha hb hd he
    have hvalue : Utf8.four a b d e = c := by
      rw [Utf8.four, bits, bits, bits, ← Char.ofNat_toNat c]
      congr 1
      omega
    have hfour := IsChar.four (a := a) (b := b) (c := d) (d := e) (by omega) (by omega)
      ((isSecondOfFour_iff a b).2 (by omega)) ((isTail_iff d).2 (by omega))
      ((isTail_iff e).2 (by omega))
    rwa [hvalue] at hfour

theorem decodeFrom_append {bytes : List UInt8} {c : Char} (h : IsChar bytes c) (p : Nat)
    (rest : List UInt8) :
    decodeFrom p (bytes ++ rest) = (decodeFrom (p + bytes.length) rest).map (c :: ·) := by
  cases h with
  | one ha =>
    rw [List.cons_append, decodeFrom.eq_def]
    simp only [List.nil_append, UInt8.lt_iff_toNat_lt, UInt8.reduceToNat]
    rw [if_pos ha, List.length_singleton]
  | two ha ha' hb =>
    rw [List.cons_append, decodeFrom.eq_def]
    simp only [List.cons_append, List.nil_append, UInt8.lt_iff_toNat_lt, UInt8.reduceToNat]
    rw [if_neg (by omega), if_neg (by omega), if_pos ha', if_pos hb]
    rfl
  | three ha ha' hb hc =>
    rw [List.cons_append, decodeFrom.eq_def]
    simp only [List.cons_append, List.nil_append, UInt8.lt_iff_toNat_lt, UInt8.reduceToNat]
    rw [if_neg (by omega), if_neg (by omega), if_neg (by omega), if_pos ha', hb, if_pos hc]
    rfl
  | four ha ha' hb hc hd =>
    rw [List.cons_append, decodeFrom.eq_def]
    simp only [List.cons_append, List.nil_append, UInt8.lt_iff_toNat_lt, UInt8.reduceToNat]
    rw [if_neg (by omega), if_neg (by omega), if_neg (by omega), if_neg (by omega), if_pos ha',
      hb, hc, if_pos hd]
    rfl

theorem eq_encode_of_map_cons {bytes rest : List UInt8} {c : Char} {text : List Char}
    {decoded : Except Fault (List Char)} (hchar : IsChar bytes c)
    (h : decoded.map (c :: ·) = .ok text)
    (hrest : ∀ {text}, decoded = .ok text → rest = encode text) : bytes ++ rest = encode text := by
  obtain ⟨text, htext, rfl⟩ := map_eq_ok h
  rw [encode_cons, hchar.bytes_eq, hrest htext]

theorem eq_encode_of_decodeFrom {p : Nat} {bytes : List UInt8} {text : List Char}
    (h : decodeFrom p bytes = .ok text) : bytes = encode text := by
  -- Of the branches of the decoder only the ones for a character can have come to a text.
  fun_induction decodeFrom p bytes generalizing text with
  | case1 =>
    cases h
    rfl
  | case2 p a rest ha ih => exact eq_encode_of_map_cons (.one ha) h ih
  | case5 p a _ ha ha' b rest hb ih =>
    have hlead : 0xc2 ≤ a.toNat := UInt8.le_iff_toNat_le.1 (UInt8.not_lt.1 ha)
    exact eq_encode_of_map_cons (.two hlead ha' hb) h ih
  | case10 p a _ _ ha ha' b hb c rest hc ih =>
    have hlead : 0xe0 ≤ a.toNat := UInt8.le_iff_toNat_le.1 (UInt8.not_lt.1 ha)
    rw [Bool.not_eq_true', Bool.not_eq_false] at hb
    exact eq_encode_of_map_cons (.three hlead ha' hb hc) h ih
  | case17 p a _ _ _ ha ha' b hb c hc d rest hd ih =>
    have hlead : 0xf0 ≤ a.toNat := UInt8.le_iff_toNat_le.1 (UInt8.not_lt.1 ha)
    rw [Bool.not_eq_true', Bool.not_eq_false] at hb hc
    exact eq_encode_of_map_cons (.four hlead ha' hb hc hd) h ih
  | _ => cases h

theorem decodeFrom_encode (p : Nat) (text : List Char) : decodeFrom p (encode text) = .ok text := by
  induction text generalizing p with
  | nil => rfl
  | cons c text ih =>
    rw [encode_cons, decodeFrom_append (isChar_utf8EncodeChar c), ih]
    rfl

/-- The bytes that can be decoded are those of a text, which is then what is read. -/
theorem decode_eq_ok_iff {bytes : List UInt8} {text : List Char} :
    decode bytes = .ok text ↔ bytes = encode text := by
  refine ⟨eq_encode_of_decodeFrom, ?_⟩
  rintro rfl
  exact decodeFrom_encode 0 text

theorem isValid_iff {bytes : List UInt8} :
    isValid bytes = true ↔ ∃ text, bytes = encode text := by
  unfold isValid
  constructor
  · intro h
    split at h
    · next text htext => exact ⟨text, decode_eq_ok_iff.1 htext⟩
    · cases h
  · rintro ⟨text, hbytes⟩
    rw [decode_eq_ok_iff.2 hbytes]

theorem utf8EncodeChar_mark : String.utf8EncodeChar '\ufeff' = mark := by decide

/-- The mark is the bytes of a character, which a text may begin with. -/
theorem isPrefixOf_mark_encode (text : List Char) :
    mark.isPrefixOf (encode text) = true ↔ text.head? = some '\ufeff' := by
  rw [List.isPrefixOf_iff_prefix]
  constructor
  · rintro ⟨rest, hrest⟩
    have htext := decodeFrom_encode 0 text
    rw [← hrest, ← utf8EncodeChar_mark, decodeFrom_append (isChar_utf8EncodeChar _)] at htext
    obtain ⟨tail, -, rfl⟩ := map_eq_ok htext
    rfl
  · cases text with
    | nil => exact nofun
    | cons c text =>
      intro hhead
      rw [Option.some.inj hhead, encode_cons, utf8EncodeChar_mark]
      exact List.prefix_append _ _

theorem decodeMarked_mark (text : List Char) : decodeMarked (mark ++ encode text) = .ok text :=
  decodeFrom_encode 0 text

theorem lead_lt {bytes : List UInt8} {c : Char} (h : IsChar bytes c) :
    ∃ a rest, bytes = a :: rest ∧ a.toNat < 0xf5 := by
  cases h with
  | one ha => exact ⟨_, _, rfl, by omega⟩
  | two _ ha => exact ⟨_, _, rfl, by omega⟩
  | three _ ha => exact ⟨_, _, rfl, by omega⟩
  | four _ ha => exact ⟨_, _, rfl, ha⟩

/-- The marks of UTF-16 start with bytes that start no character. -/
theorem isPrefixOf_encode_eq_false {a : UInt8} (h : 0xf5 ≤ a.toNat) (marks : List UInt8)
    (text : List Char) : (a :: marks).isPrefixOf (encode text) = false := by
  rw [Bool.eq_false_iff, ne_eq, List.isPrefixOf_iff_prefix]
  rintro ⟨rest, hrest⟩
  cases text with
  | nil => cases hrest
  | cons c text =>
    obtain ⟨b, tail, hbytes, hb⟩ := lead_lt (isChar_utf8EncodeChar c)
    rw [encode_cons, hbytes] at hrest
    obtain rfl : a = b := (List.cons.inj hrest).1
    omega

end SchemaTransfer.Encoding.Utf8
