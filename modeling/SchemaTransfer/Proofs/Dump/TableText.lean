import SchemaTransfer.Dump.TableLine
import SchemaTransfer.Proofs.Dump.ColumnText

/-!
# Options of identities and storage as a dump writes them

Both are read back as they were written.
-/
namespace SchemaTransfer.Dump
open Unicode Scan

namespace IntegerText

def text (n : IntegerText) : List Char := n.sign.text ++ n.digits.chars

/-- The digits with a minus sign before them or not. -/
def numeral (n : IntegerText) : List Char :=
  match n.sign with
  | .minus => '-' :: n.digits.chars
  | _ => n.digits.chars

end IntegerText

namespace IdentityOption

def text : IdentityOption → List Char
  | start n => "START WITH ".toList ++ n.text
  | increment n => "INCREMENT BY ".toList ++ n.text
  | minValue n => "MINVALUE ".toList ++ n.text
  | maxValue n => "MAXVALUE ".toList ++ n.text
  | cycle on => (if on then "CYCLE" else "NO CYCLE").toList
  | cache none => "NO CACHE".toList
  | cache (some size) => "CACHE ".toList ++ size.chars

def clause : IdentityOption → IdentityClause
  | start n => .start n.numeral
  | increment n => .increment n.numeral
  | minValue n => .minValue n.numeral
  | maxValue n => .maxValue n.numeral
  | cycle on => .cycle on
  | cache size => .cache (size.map (·.chars))

end IdentityOption

/-- The line that ends the options of an identity. -/
def orderText (order closes : Bool) : List Char :=
  (if order then "ORDER )" else "NO ORDER )").toList ++ separatorText closes

structure StorageText where
  tablespace : Option NameText := none
  indexTablespace : Option NameText := none
  longTablespace : Option NameText := none
  /-- Whether a table is organized by column. -/
  byColumn : Option Bool := none
  given : tablespace.isSome || indexTablespace.isSome || longTablespace.isSome || byColumn.isSome

namespace StorageText

def placeText (keywords : String) : Option NameText → List Char
  | none => []
  | some name => ' ' :: (keywords.toList ++ ' ' :: inQuotes name.text.toList)

def organizationText : Option Bool → List Char
  | none => []
  | some byColumn => (if byColumn then " ORGANIZE BY COLUMN" else " ORGANIZE BY ROW").toList

/-- All parts with a space before each. -/
def spaced (s : StorageText) : List Char :=
  placeText "IN" s.tablespace ++ (placeText "INDEX IN" s.indexTablespace ++
    (placeText "LONG IN" s.longTablespace ++ organizationText s.byColumn))

def text (s : StorageText) : List Char := s.spaced.tail

/-- The first part begins with one of three letters. -/
theorem spaced_eq_cons_cons (s : StorageText) :
    ∃ c cs, s.spaced = ' ' :: c :: cs ∧ c ∈ ['I', 'L', 'O'] := by
  have hgiven := s.given
  unfold spaced
  cases htable : s.tablespace with
  | some name => exact ⟨'I', _, rfl, by decide⟩
  | none =>
    cases hindex : s.indexTablespace with
    | some name => exact ⟨'I', _, rfl, by decide⟩
    | none =>
      cases hlong : s.longTablespace with
      | some name => exact ⟨'L', _, rfl, by decide⟩
      | none =>
        cases hcolumn : s.byColumn with
        | some byColumn => cases byColumn <;> exact ⟨'O', _, rfl, by decide⟩
        | none => simp [htable, hindex, hlong, hcolumn] at hgiven

theorem spaced_eq_cons (s : StorageText) : s.spaced = ' ' :: s.text := by
  obtain ⟨c, cs, hspaced, -⟩ := s.spaced_eq_cons_cons
  rw [text, hspaced, List.tail_cons]

theorem trimLeft_text (s : StorageText) (pad : List Char) :
    trimLeft (s.text ++ pad) = trimLeft (s.spaced ++ pad) := by
  rw [s.spaced_eq_cons]
  rfl

end StorageText

section

variable {indent pad : List Char}

theorem optional_plus (ds : Digits) (rest : List Char) :
    Scan.optional (literal? "+") (ds.chars ++ rest) = ds.chars ++ rest := by
  obtain ⟨c, chars, hds, hc⟩ := ds.eq_cons
  have hplus : '+' ≠ c := (ne_of_test hc (by decide)).symm
  rw [hds, List.cons_append, Scan.optional, literal?_cons_of_ne (d := '+') rfl hplus]
  rfl

theorem number?_text (n : IntegerText) {rest : List Char}
    (h : ∀ c ∈ rest.head?, isDigit c = false) :
    number? (Scan.optional (literal? "+") (n.text ++ rest)) = some (n.numeral, rest) := by
  unfold IntegerText.text IntegerText.numeral
  rw [List.append_assoc]
  cases n.sign with
  | minus =>
    show (digits? (n.digits.chars ++ rest)).map _ = _
    rw [digits?_append n.digits h]
    rfl
  | plus => exact number?_append n.digits h
  | none =>
    show number? (Scan.optional (literal? "+") (n.digits.chars ++ rest)) = _
    rw [optional_plus, number?_append n.digits h]

theorem value?_text (n : IntegerText) (hpad : allBlank pad = true) :
    IdentityClause.value? (n.text ++ pad) = some n.numeral := by
  rw [IdentityClause.value?, number?_text n (head_of_allBlank hpad)]
  simp [finish?_of_allBlank hpad]

namespace IdentityOption

theorem startsVisible_text (o : IdentityOption) : startsVisible o.text = true := by
  cases o with
  | start n => exact startsVisible_append (a := "START WITH ".toList) (by decide) _
  | increment n => exact startsVisible_append (a := "INCREMENT BY ".toList) (by decide) _
  | minValue n => exact startsVisible_append (a := "MINVALUE ".toList) (by decide) _
  | maxValue n => exact startsVisible_append (a := "MAXVALUE ".toList) (by decide) _
  | cycle on => cases on <;> decide
  | cache size =>
    cases size with
    | none => decide
    | some size => exact startsVisible_append (a := "CACHE ".toList) (by decide) _

theorem ofLine?_text (o : IdentityOption) (hindent : allBlank indent = true)
    (hpad : allBlank pad = true) :
    IdentityClause.ofLine? (indent ++ (o.text ++ pad)) = some o.clause := by
  have hnumber (w : String) (build : List Char → IdentityClause) (n : IntegerText) :
      ((literal? w (w.toList ++ (n.text ++ pad))).bind IdentityClause.value?).map build =
        some (build n.numeral) := by
    rw [literal?_append, Option.bind_some, value?_text n hpad, Option.map_some]
  unfold IdentityClause.ofLine?
  dsimp only
  rw [trimLeft_append hindent, trimLeft_of_startsVisible o.startsVisible_text]
  cases o with
  | start n =>
    have htext : (start n).text ++ pad = "START WITH ".toList ++ (n.text ++ pad) :=
      List.append_assoc _ _ _
    rw [htext, hnumber "START WITH "]
    rfl
  | increment n =>
    have htext : (increment n).text ++ pad = "INCREMENT BY ".toList ++ (n.text ++ pad) :=
      List.append_assoc _ _ _
    rw [htext, hnumber "INCREMENT BY "]
    rfl
  | minValue n =>
    have htext : (minValue n).text ++ pad = "MINVALUE ".toList ++ (n.text ++ pad) :=
      List.append_assoc _ _ _
    rw [htext, hnumber "MINVALUE "]
    rfl
  | maxValue n =>
    have htext : (maxValue n).text ++ pad = "MAXVALUE ".toList ++ (n.text ++ pad) :=
      List.append_assoc _ _ _
    rw [htext, hnumber "MAXVALUE "]
    rfl
  | cycle on =>
    have htrim : trimRight ((cycle on).text ++ pad) = (cycle on).text :=
      trimRight_append (by cases on <;> decide) hpad
    rw [htrim]
    cases on <;> rfl
  | cache size =>
    cases size with
    | none =>
      rw [trimRight_append (a := (cache none).text) (by decide) hpad]
      rfl
    | some size =>
      have htrim : trimRight ((cache (some size)).text ++ pad) = "CACHE ".toList ++ size.chars :=
        trimRight_append (endsVisible_append _ size.endsVisible) hpad
      have hfixed : (IdentityClause.fixed.find? fun f =>
          f.1.toList == trimRight ((cache (some size)).text ++ pad)) = none := by
        have hdiffer : ∀ f ∈ IdentityClause.fixed, differ f.1.toList "CACHE ".toList = true := by
          decide +kernel
        rw [htrim]
        refine List.find?_eq_none.2 fun f hf => ?_
        simpa using append_ne_of_differ (hdiffer f hf) [] size.chars
      have hsize : (digits? (size.chars ++ pad)) = some (size.chars, pad) :=
        digits?_append size (head_of_allBlank hpad)
      have htext : (cache (some size)).text ++ pad = "CACHE ".toList ++ (size.chars ++ pad) :=
        List.append_assoc _ _ _
      rw [hfixed, htext, literal?_append "CACHE "]
      simp only [Option.bind_eq_bind, Option.bind_some, hsize, finish?_of_allBlank hpad]
      rfl

end IdentityOption

theorem endsVisible_orderText (order closes : Bool) :
    endsVisible (orderText order closes) = true := by
  cases order <;> cases closes <;> decide

theorem ofLine?_orderText (order closes : Bool) (hindent : allBlank indent = true)
    (hpad : allBlank pad = true) :
    IdentityClause.ofLine? (indent ++ (orderText order closes ++ pad)) =
      some (.order order closes) := by
  have hread : IdentityClause.order? (orderText order closes ++ pad) =
      some (.order order closes) := by
    have hfinish := finish?_of_allBlank hpad
    cases order <;> cases closes <;>
    · show (finish? pad).bind _ = _
      rw [hfinish]
      rfl
  have hstarts : startsVisible (orderText order closes) = true := by
    cases order <;> cases closes <;> decide
  unfold IdentityClause.ofLine?
  dsimp only
  rw [trimLeft_append hindent, trimLeft_of_startsVisible hstarts, hread,
    trimRight_append (endsVisible_orderText order closes) hpad]
  cases order <;> cases closes <;> rfl

end

namespace Storage

/-- A name behind its keywords, or what follows if there is none. -/
theorem optionalPlace_text {keywords : List String} {words : String} {rest : List Char}
    (hwords : startsVisible words.toList = true)
    (hsome : ∀ cs, place? keywords (words.toList ++ ' ' :: '"' :: cs) = name? ('"' :: cs))
    (hnone : place? keywords (trimLeft rest) = none) (place : Option NameText) :
    optionalPlace keywords (trimLeft (StorageText.placeText words place ++ rest)) =
      (place.map (·.text), trimLeft rest) := by
  cases place with
  | none =>
    rw [StorageText.placeText, List.nil_append, optionalPlace, hnone]
    rfl
  | some name =>
    have htext : trimLeft (StorageText.placeText words (some name) ++ rest) =
        words.toList ++ ' ' :: (inQuotes name.text.toList ++ rest) := by
      have hword := trimLeft_of_startsVisible hwords (' ' :: (inQuotes name.text.toList ++ rest))
      rw [← hword, StorageText.placeText, List.cons_append, List.append_assoc, List.cons_append]
      rfl
    have hplace : place? keywords (words.toList ++ ' ' :: (inQuotes name.text.toList ++ rest)) =
        some (name.text, rest) := by
      rw [inQuotes, List.cons_append, hsome, ← List.cons_append, ← inQuotes,
        name?_inQuotes name.doubleQuoteFree, name.trimmed, String.ofList_toList]
    rw [htext, optionalPlace, hplace]
    rfl

variable {indent pad : List Char}

theorem ofLine?_text (s : StorageText) (hindent : allBlank indent = true)
    (hpad : allBlank pad = true) : Storage.ofLine? (indent ++ (s.text ++ pad)) =
      some ⟨s.tablespace.map (·.text), s.indexTablespace.map (·.text),
        s.longTablespace.map (·.text)⟩ := by
  have hblank : trimLeft pad = [] := List.dropWhile_eq_nil_iff.2 (List.all_eq_true.1 hpad)
  have hspaced : trimLeft (indent ++ (s.text ++ pad)) =
      trimLeft (StorageText.placeText "IN" s.tablespace ++
        (StorageText.placeText "INDEX IN" s.indexTablespace ++
          (StorageText.placeText "LONG IN" s.longTablespace ++
            (StorageText.organizationText s.byColumn ++ pad)))) := by
    rw [trimLeft_append hindent, s.trimLeft_text, StorageText.spaced]
    simp only [List.append_assoc]
  have horganized (keywords : List String)
      (h : keywords ∈ [["IN"], ["INDEX", "IN"], ["LONG", "IN"]]) :
      place? keywords (trimLeft (StorageText.organizationText s.byColumn ++ pad)) = none := by
    simp only [List.mem_cons, List.not_mem_nil, or_false] at h
    rcases s.byColumn with _ | _ | _
    · rw [StorageText.organizationText, List.nil_append, hblank]
      rcases h with rfl | rfl | rfl <;> rfl
    · rcases h with rfl | rfl | rfl <;> rfl
    · rcases h with rfl | rfl | rfl <;> rfl
  have hlong (keywords : List String) (h : keywords ∈ [["IN"], ["INDEX", "IN"]]) :
      place? keywords (trimLeft (StorageText.placeText "LONG IN" s.longTablespace ++
        (StorageText.organizationText s.byColumn ++ pad))) = none := by
    cases s.longTablespace with
    | none => exact horganized keywords (List.mem_append_left [["LONG", "IN"]] h)
    | some name =>
      simp only [List.mem_cons, List.not_mem_nil, or_false] at h
      rcases h with rfl | rfl <;> rfl
  have hindex : place? ["IN"] (trimLeft (StorageText.placeText "INDEX IN" s.indexTablespace ++
      (StorageText.placeText "LONG IN" s.longTablespace ++
        (StorageText.organizationText s.byColumn ++ pad)))) = none := by
    cases s.indexTablespace with
    | none => exact hlong _ (by simp)
    | some name => rfl
  have hfinish : finish? (Scan.optional organization?
      (trimLeft (StorageText.organizationText s.byColumn ++ pad))) = some () := by
    rcases s.byColumn with _ | _ | _
    · rw [StorageText.organizationText, List.nil_append, hblank]
      rfl
    · exact finish?_of_allBlank hpad
    · exact finish?_of_allBlank hpad
  unfold Storage.ofLine?
  rw [hspaced, optionalPlace_text (by decide) (fun _ => rfl) hindex]
  dsimp only
  rw [optionalPlace_text (by decide) (fun _ => rfl) (hlong _ (by simp))]
  dsimp only
  rw [optionalPlace_text (by decide) (fun _ => rfl) (horganized _ (by simp))]
  dsimp only
  rw [hfinish]
  rfl

end Storage

end SchemaTransfer.Dump
