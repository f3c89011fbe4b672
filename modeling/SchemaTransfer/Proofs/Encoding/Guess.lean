import SchemaTransfer.Encoding.Basic
import SchemaTransfer.Proofs.Encoding.Utf16
import SchemaTransfer.Proofs.Lines

/-!
# Reading in a guessed encoding

A mark decides at once. Without a mark the bytes are tried as UTF-8, and ISO 8859-15 takes all that
is left, so every file without a mark can be read. A text that was written in UTF-8 or UTF-16 is
read as it was written, unless it has no mark and begins with the character that is one.
-/
namespace SchemaTransfer.Encoding

/-- Whether one of the three marks stands before the bytes. -/
def IsMarked (bytes : List UInt8) : Prop :=
  Utf8.mark <+: bytes ∨ Utf16.littleMark <+: bytes ∨ Utf16.bigMark <+: bytes

/-- The bytes are read as the text, and its lines are those of the file. -/
structure ReadAs (bytes : List UInt8) (text : List Char) : Prop where
  decoded : (guess bytes).decode bytes = .ok text
  lines : ∃ lines, (∀ codecs, readLines codecs none bytes = .ok lines) ∧
    Lines.IsCut '\n' text lines

/-- Where no bytes are, the guess is UTF-8, in which they are the text without characters. -/
theorem readText_guess (codecs : Codecs) (bytes : List UInt8) :
    readText codecs none bytes = ((guess bytes).decode bytes).mapError .undecodable := by
  cases bytes with
  | nil => rfl
  | cons b bytes => rfl

theorem readAs_of_decode {bytes : List UInt8} {text : List Char}
    (h : (guess bytes).decode bytes = .ok text) : ReadAs bytes text := by
  refine ⟨h, List.splitOn '\n' text, fun codecs => ?_, Lines.isCut_iff.2 rfl⟩
  rw [readLines, readText_guess, h]
  rfl

section Unmarked

variable {bytes : List UInt8}

theorem guess_unmarked (h : ¬ IsMarked bytes) :
    guess bytes = if Utf8.isValid bytes then .utf8 else .latin9 := by
  simp only [IsMarked, not_or, ← List.isPrefixOf_iff_prefix] at h
  obtain ⟨hutf8, hlittle, hbig⟩ := h
  rw [guess, if_neg hutf8, if_neg (by rw [Bool.or_eq_true]; exact not_or.2 ⟨hlittle, hbig⟩)]

theorem guess_utf8 (h : ¬ IsMarked bytes) {text : List Char} (hbytes : bytes = Utf8.encode text) :
    guess bytes = .utf8 := by
  rw [guess_unmarked h, if_pos (Utf8.isValid_iff.2 ⟨text, hbytes⟩)]

theorem guess_latin9 (h : ¬ IsMarked bytes) (hbytes : ∀ text, bytes ≠ Utf8.encode text) :
    guess bytes = .latin9 := by
  rw [guess_unmarked h, if_neg]
  rw [Utf8.isValid_iff]
  exact not_exists.2 hbytes

theorem not_isMarked_encode {text : List Char} (h : text.head? ≠ some '\ufeff') :
    ¬ IsMarked (Utf8.encode text) := by
  simp only [IsMarked, not_or, ← List.isPrefixOf_iff_prefix]
  refine ⟨?_, ?_, ?_⟩
  · rwa [Utf8.isPrefixOf_mark_encode]
  · exact Bool.eq_false_iff.1 (Utf8.isPrefixOf_encode_eq_false (by decide) _ text)
  · exact Bool.eq_false_iff.1 (Utf8.isPrefixOf_encode_eq_false (by decide) _ text)

end Unmarked

theorem guess_mark (bytes : List UInt8) : guess (Utf8.mark ++ bytes) = .utf8Marked := by
  rw [guess, if_pos (List.isPrefixOf_iff_prefix.2 (List.prefix_append _ _))]

theorem guess_markOf (o : Utf16.Order) (bytes : List UInt8) :
    guess (Utf16.markOf o ++ bytes) = .utf16 := by
  cases o with
  | little => rfl
  | big => rfl

/-- A file without a mark is read as UTF-8 if it is the encoding of a text, and as ISO 8859-15 if
there is no such text; it is always read as something. A text behind a mark is read as it is, in
UTF-8 and in both orders of UTF-16; in UTF-8 it needs no mark as long as it does not begin with
the character of the mark. -/
theorem readAs_guess :
    (∀ bytes, ¬ IsMarked bytes →
      (∃ text, bytes = Utf8.encode text ∧ guess bytes = .utf8 ∧ ReadAs bytes text) ∨
      (∀ text, bytes ≠ Utf8.encode text) ∧ guess bytes = .latin9 ∧
        ReadAs bytes (SingleByte.latin9 bytes)) ∧
    ∀ text,
      ReadAs (Utf8.mark ++ Utf8.encode text) text ∧
      (∀ o, ReadAs (Utf16.markOf o ++ Utf16.encode o text) text) ∧
      (text.head? ≠ some '\ufeff' → ReadAs (Utf8.encode text) text) := by
  have hunmarked {text : List Char} (h : ¬ IsMarked (Utf8.encode text)) :
      ReadAs (Utf8.encode text) text := by
    refine readAs_of_decode ?_
    rw [guess_utf8 h rfl]
    exact Utf8.decode_eq_ok_iff.2 rfl
  refine ⟨fun bytes hmark => ?_, fun text => ⟨?_, fun o => ?_, fun hhead => ?_⟩⟩
  · by_cases hvalid : ∃ text, bytes = Utf8.encode text
    · obtain ⟨text, rfl⟩ := hvalid
      exact .inl ⟨text, rfl, guess_utf8 hmark rfl, hunmarked hmark⟩
    · rw [not_exists] at hvalid
      have hguess := guess_latin9 hmark hvalid
      refine .inr ⟨hvalid, hguess, readAs_of_decode ?_⟩
      rw [hguess]
      rfl
  · refine readAs_of_decode ?_
    rw [guess_mark]
    exact Utf8.decodeMarked_mark text
  · refine readAs_of_decode ?_
    rw [guess_markOf]
    exact Utf16.decodeMarked_mark o text
  · exact hunmarked (not_isMarked_encode hhead)

/-- A byte that UTF-8 does not allow there, and a character beyond the first 65536 behind the mark
of big endian UTF-16. -/
theorem readAs_euro_and_pair :
    ReadAs [0x35, 0xa4] ['5', '€'] ∧
    ReadAs [0xfe, 0xff, 0x00, 0x61, 0x00, 0x0a, 0xd8, 0x3d, 0xde, 0x00] ['a', '\n', '😀'] ∧
    ReadAs [0x61, 0xe2, 0x82, 0xac] ['a', '€'] := by
  obtain ⟨hany, htext⟩ := readAs_guess
  refine ⟨?_, (htext ['a', '\n', '😀']).2.1 .big, (htext ['a', '€']).2.2 (by decide)⟩
  obtain ⟨text, hbytes, -⟩ | ⟨-, -, hread⟩ :=
    hany [0x35, 0xa4] (by rw [IsMarked]; decide)
  · cases Utf8.decode_eq_ok_iff.2 hbytes
  · exact hread

end SchemaTransfer.Encoding
