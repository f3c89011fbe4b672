import SchemaTransfer.Proofs.Dump.LineEnd
import SchemaTransfer.Proofs.Dump.TypeText
import SchemaTransfer.Proofs.Lines

/-!
# Containers as they are written

A container is a path between single quotes, with the kind of the container before it and a size
behind it, or without them. Whatever commas and parentheses stand in the path, its quotes tell where
it ends. So a container is read wherever it stands on a line and whatever follows its separator, and
from one that is cut off before its separator nothing is read.
-/
namespace SchemaTransfer.Dump
open Unicode Scan

def Blanks.empty : Blanks := ⟨[], rfl, by decide⟩

theorem Blanks.allBlank_space : allBlank [' '] = true := rfl

def Blanks.space : Blanks := ⟨[' '], allBlank_space, by decide⟩

inductive ContainerKind
  | file
  | device

def ContainerKind.word : ContainerKind → String
  | file => "FILE"
  | device => "DEVICE"

/-- The size of a container, in pages where no unit is given. -/
structure SizeText where
  gap : Blanks := .space
  apart : gap.chars ≠ [] := by decide
  digits : Digits
  unitPad : Blanks := .empty
  unit : Option SizeUnit := none

namespace SizeText

def unitText (unit : Option SizeUnit) : List Char := (unit.map SizeUnit.char).toList

def text (s : SizeText) : List Char :=
  s.gap.chars ++ (s.digits.chars ++ (s.unitPad.chars ++ unitText s.unit))

end SizeText

/-- A container with the blanks around it, up to its separator. -/
structure ContainerText where
  indent : Blanks := .empty
  kind : Option (ContainerKind × Blanks) := none
  path : String
  size : Option SizeText := none
  pad : Blanks := .empty
  quoteFree : '\'' ∉ path.toList := by decide
  oneLine : '\n' ∉ path.toList := by decide

namespace ContainerText

def kindText (kind : Option (ContainerKind × Blanks)) : List Char :=
  (kind.map fun k => k.1.word.toList ++ k.2.chars).getD []

/-- What stands before the path. -/
def front (k : ContainerText) : List Char := k.indent.chars ++ kindText k.kind

/-- What stands between the path and the separator. -/
def back (k : ContainerText) : List Char := (k.size.map (·.text)).getD [] ++ k.pad.chars

def text (k : ContainerText) : List Char :=
  k.front ++ '\'' :: (k.path.toList ++ '\'' :: k.back)

end ContainerText

/-- What follows a container: a parenthesis behind the last one, a comma behind the others. -/
def Container.separator (closes : Bool) : Char := if closes then ')' else ','

open Container (separator)

/-- A further container of a list. It stands on a new line if the line ends behind the comma, which
may have blanks behind it then. -/
structure FurtherText where
  lineEnd : Option Blanks := none
  container : ContainerText

/-- What stands between the comma and the container. -/
def FurtherText.between (f : FurtherText) : List Char :=
  (f.lineEnd.map fun pad => pad.chars ++ ['\n']).getD []

/-- One or more containers, broken into lines, up to the parenthesis that closes the list. -/
def listText (k : ContainerText) : List FurtherText → List Char
  | [] => k.text
  | f :: more => k.text ++ ',' :: (f.between ++ listText f.container more)

/-- A list of containers with the words that open it. -/
structure ContainerList where
  indent : Blanks := .empty
  gap : Blanks := .empty
  first : ContainerText
  further : List FurtherText

namespace ContainerList

def opening (l : ContainerList) : List Char :=
  l.indent.chars ++ ("USING".toList ++ (l.gap.chars ++ ['(']))

def text (l : ContainerList) : List Char := listText l.first l.further

def paths (l : ContainerList) : List String :=
  l.first.path :: l.further.map (·.container.path)

end ContainerList

theorem Blanks.not_mem (p : Blanks) {c : Char} (h : isBlank c = false) : c ∉ p.chars :=
  not_mem_of_all p.blank h

namespace ContainerText

variable {c : Char}

theorem not_mem_front (k : ContainerText) (hpad : ∀ p : Blanks, c ∉ p.chars)
    (hword : ∀ kind : ContainerKind, c ∉ kind.word.toList) : c ∉ k.front := by
  refine List.not_mem_append (hpad _) ?_
  rcases k.kind with _ | ⟨kind, pad⟩
  · exact List.not_mem_nil
  · exact List.not_mem_append (hword kind) (hpad pad)

theorem not_mem_back (k : ContainerText) (hpad : ∀ p : Blanks, c ∉ p.chars)
    (hdigit : isDigit c = false) (hunit : ∀ unit : SizeUnit, c ≠ unit.char) :
    c ∉ k.back := by
  refine List.not_mem_append ?_ (hpad _)
  rcases k.size with _ | ⟨gap, apart, digits, unitPad, unit⟩
  · exact List.not_mem_nil
  · refine List.not_mem_append (hpad gap) (List.not_mem_append (Digits.ne hdigit)
      (List.not_mem_append (hpad unitPad) ?_))
    cases unit with
    | none => exact List.not_mem_nil
    | some unit => exact mt List.mem_singleton.1 (hunit unit)

theorem quoteFree_front (k : ContainerText) : '\'' ∉ k.front :=
  k.not_mem_front (fun p => p.not_mem (by decide)) fun kind => by cases kind <;> decide

theorem quoteFree_back (k : ContainerText) : '\'' ∉ k.back :=
  k.not_mem_back (fun p => p.not_mem (by decide)) (by decide) fun unit => by cases unit <;> decide

theorem separator_not_mem_back (k : ContainerText) (closes : Bool) : separator closes ∉ k.back := by
  cases closes
  all_goals
    exact k.not_mem_back (fun p => p.not_mem (by decide)) (by decide)
      fun unit => by cases unit <;> decide

theorem oneLine_text (k : ContainerText) : '\n' ∉ k.text := by
  have hfront : '\n' ∉ k.front :=
    k.not_mem_front (fun p => p.line) fun kind => by cases kind <;> decide
  have hback : '\n' ∉ k.back :=
    k.not_mem_back (fun p => p.line) (by decide) fun unit => by cases unit <;> decide
  simp [text, hfront, hback, k.oneLine]

theorem text_append (k : ContainerText) (rest : List Char) :
    k.text ++ rest = k.front ++ '\'' :: (k.path.toList ++ '\'' :: (k.back ++ rest)) := by
  simp [text]

theorem count_quote_text (k : ContainerText) : k.text.count '\'' = 2 := by
  rw [text, List.count_append, List.count_cons_self, List.count_append, List.count_cons_self,
    List.count_eq_zero_of_not_mem k.quoteFree_front, List.count_eq_zero_of_not_mem k.quoteFree,
    List.count_eq_zero_of_not_mem k.quoteFree_back]

end ContainerText

namespace Container

theorem isBlank_separator (closes : Bool) : isBlank (separator closes) = false := by
  cases closes <;> decide

theorem trimLeft_separator (closes : Bool) (rest : List Char) :
    trimLeft (separator closes :: rest) = separator closes :: rest :=
  trimLeft_cons (isBlank_separator closes) rest

theorem digits?_separator (closes : Bool) (rest : List Char) :
    digits? (separator closes :: rest) = none := by cases closes <;> rfl

theorem one?_of_ne {c : Char} (h : c ≠ '\'') (cs : List Char) : one? (c :: cs) = none := by
  rw [one?, literal?_cons_of_ne rfl h.symm]
  rfl

theorem size?_isSuffix {cs rest : List Char} (h : size? cs = some rest) : rest <:+ cs := by
  simp only [size?, Option.bind_eq_bind, Option.bind_eq_some_iff] at h
  obtain ⟨cs₁, hblanks, ⟨ds, cs₂⟩, hdigits, heq⟩ := h
  cases heq
  have hunit : optional (fun cs => (oneOf? ["K", "M", "G"] cs).map (·.2)) (trimLeft cs₂) <:+
      trimLeft cs₂ := optional_isSuffix fun h => by
    obtain ⟨⟨w, rest⟩, hw, rfl⟩ := Option.map_eq_some_iff.1 h
    exact oneOf?_isSuffix hw
  exact ((hunit.trans (trimLeft_isSuffix cs₂)).trans (digits?_isSuffix hdigits)).trans
    (blanks?_isSuffix hblanks)

/-- What a container is read from: a text between quotes, with a separator somewhere behind. -/
theorem one?_eq_some {c : Container} {cs rest : List Char} (h : one? cs = some (c, rest)) :
    ∃ path back closes, cs = '\'' :: (path ++ '\'' :: (back ++ separator closes :: rest)) := by
  simp only [one?, Option.bind_eq_bind, Option.bind_eq_some_iff] at h
  obtain ⟨cs₁, hopen, cs₂, hclose, ⟨w, rest⟩, hseparator, heq⟩ := h
  cases heq
  obtain ⟨back, hback⟩ : trimLeft (optional size? cs₂) <:+ cs₂ :=
    (trimLeft_isSuffix _).trans (optional_isSuffix size?_isSuffix)
  obtain ⟨closes, hcloses⟩ :
      ∃ closes, separator closes :: rest = trimLeft (optional size? cs₂) := by
    obtain ⟨hw, hrest⟩ := oneOf?_eq_some hseparator
    simp only [List.mem_cons, List.not_mem_nil, or_false] at hw
    rcases hw with rfl | rfl
    · exact ⟨false, hrest⟩
    · exact ⟨true, hrest⟩
  refine ⟨cs₁.takeWhile (· != '\''), back, closes, ?_⟩
  have hpath : cs₁.takeWhile (· != '\'') ++ '\'' :: cs₂ = cs₁ := by
    conv_rhs => rw [← List.takeWhile_append_dropWhile (p := (· != '\'')) (l := cs₁),
      ← literal?_eq_some.1 hclose]
    rfl
  rw [hcloses, hback, hpath]
  exact (literal?_eq_some.1 hopen).symm

theorem length_lt_of_one? {c : Container} {cs rest : List Char} (h : one? cs = some (c, rest)) :
    rest.length < cs.length := by
  obtain ⟨path, back, closes, rfl⟩ := one?_eq_some h
  simp only [List.length_cons, List.length_append]
  omega

end Container

namespace ContainerText

variable (k : ContainerText) (closes : Bool) (rest : List Char)

/-- Where no size is given, none is read. -/
theorem size?_pad : Container.size? (k.pad.chars ++ separator closes :: rest) = none := by
  unfold Container.size?
  by_cases hpad : k.pad.chars = []
  · rw [hpad, List.nil_append, blanks?_of_not_blank (Container.isBlank_separator closes)]
    rfl
  · rw [Scan.blanks?_append k.pad.blank hpad (Container.trimLeft_separator closes rest)]
    simp [Container.digits?_separator]

/-- Behind the digits of a size its unit is passed, and no blank but the one before it. -/
theorem exists_optional_unit (unitPad : Blanks) (unit : Option SizeUnit) :
    ∃ pad, allBlank pad = true ∧
      Scan.optional (fun cs => (oneOf? ["K", "M", "G"] cs).map (·.2))
          (trimLeft (unitPad.chars ++
            (SizeText.unitText unit ++ (k.pad.chars ++ separator closes :: rest)))) =
        pad ++ separator closes :: rest := by
  rw [trimLeft_append unitPad.blank]
  cases unit with
  | none =>
    refine ⟨[], rfl, ?_⟩
    show Scan.optional _ (trimLeft (k.pad.chars ++ separator closes :: rest)) = _
    rw [trimLeft_append k.pad.blank, Container.trimLeft_separator]
    cases closes <;> rfl
  | some unit =>
    refine ⟨k.pad.chars, k.pad.blank, ?_⟩
    cases unit <;> rfl

/-- What follows the digits of a size is no digit. -/
theorem isDigit_behind (unitPad : Blanks) (unit : Option SizeUnit) :
    ∀ c ∈ (unitPad.chars ++
      (SizeText.unitText unit ++ (k.pad.chars ++ separator closes :: rest))).head?,
      isDigit c = false := by
  refine isDigit_head?_append unitPad.blank ?_
  cases unit with
  | none =>
    show ∀ c ∈ (k.pad.chars ++ separator closes :: rest).head?, isDigit c = false
    refine isDigit_head?_append k.pad.blank fun c hc => ?_
    obtain rfl := Option.some.inj hc
    cases closes <;> decide
  | some unit =>
    intro c hc
    cases unit
    all_goals
      obtain rfl := Option.some.inj hc
      decide

theorem exists_size?_text (s : SizeText) :
    ∃ pad, allBlank pad = true ∧
      Container.size? (s.text ++ (k.pad.chars ++ separator closes :: rest)) =
        some (pad ++ separator closes :: rest) := by
  obtain ⟨pad, hpad, hunit⟩ := k.exists_optional_unit closes rest s.unitPad s.unit
  have hdigits := digits?_append s.digits (k.isDigit_behind closes rest s.unitPad s.unit)
  refine ⟨pad, hpad, ?_⟩
  rw [SizeText.text, List.append_assoc, List.append_assoc, List.append_assoc, Container.size?,
    Scan.blanks?_append s.gap.blank s.apart (s.digits.trimLeft_append _)]
  simp only [Option.bind_eq_bind, Option.bind_some, hdigits, hunit]
  rfl

/-- The size of a container is passed with the blanks around it. -/
theorem trimLeft_optional_size? :
    trimLeft (Scan.optional Container.size? (k.back ++ separator closes :: rest)) =
      separator closes :: rest := by
  have htrim {pad : List Char} (hpad : allBlank pad = true) :
      trimLeft (pad ++ separator closes :: rest) = separator closes :: rest := by
    rw [trimLeft_append hpad, Container.trimLeft_separator]
  rw [back, List.append_assoc]
  cases k.size with
  | none =>
    show trimLeft (Scan.optional Container.size? (k.pad.chars ++ separator closes :: rest)) = _
    rw [Scan.optional, k.size?_pad, Option.getD_none, htrim k.pad.blank]
  | some s =>
    obtain ⟨pad, hpad, hsize⟩ := k.exists_size?_text closes rest s
    rw [Option.map_some, Option.getD_some, Scan.optional, hsize, Option.getD_some, htrim hpad]

theorem one?_path :
    Container.one? ('\'' :: (k.path.toList ++ '\'' :: (k.back ++ separator closes :: rest))) =
      some (⟨k.path, closes⟩, rest) := by
  have hseparator : oneOf? [",", ")"] (separator closes :: rest) =
      some (if closes then ")" else ",", rest) := by cases closes <;> rfl
  have hopen (cs : List Char) : literal? "'" ('\'' :: cs) = some cs := rfl
  have hcloses : ((if closes then ")" else ",") == ")") = closes := by cases closes <;> rfl
  rw [Container.one?, hopen]
  simp only [Option.bind_eq_bind, Option.bind_some, takeWhile_ne_append k.quoteFree,
    dropWhile_ne_append k.quoteFree, hopen, k.trimLeft_optional_size?, hseparator, hcloses,
    String.ofList_toList]
  rfl

end ContainerText

namespace Container

theorem length_lt_of_search? {c : Container} {cs rest : List Char}
    (h : search? one? cs = some (c, rest)) : rest.length < cs.length := by
  obtain ⟨suffix, hsuffix, hone⟩ := search?_eq_some h
  exact (length_lt_of_one? hone).trans_le hsuffix.length_le

/-- As a bound on the containers, all numbers from that of the characters on are the same. -/
theorem all_eq_all {n m : Nat} {cs : List Char} (hn : cs.length ≤ n) (hm : cs.length ≤ m) :
    all n cs = all m cs := by
  induction n generalizing m cs with
  | zero =>
    obtain rfl := List.length_eq_zero_iff.1 (Nat.le_zero.1 hn)
    cases m <;> rfl
  | succ n ih =>
    cases m with
    | zero =>
      obtain rfl := List.length_eq_zero_iff.1 (Nat.le_zero.1 hm)
      rfl
    | succ m =>
      rw [all, all]
      cases h : search? one? cs with
      | none => rfl
      | some found =>
        have hlength : found.2.length < cs.length := length_lt_of_search? h
        exact congrArg (found.1 :: ·) (ih (by omega) (by omega))

theorem ofLine_of_none {cs : List Char} (h : search? one? cs = none) : ofLine cs = [] := by
  unfold ofLine
  cases cs.length with
  | zero => rfl
  | succ n => rw [all, h]

theorem ofLine_of_some {c : Container} {cs rest : List Char}
    (h : search? one? cs = some (c, rest)) : ofLine cs = c :: ofLine rest := by
  have hlength := length_lt_of_search? h
  obtain ⟨n, hn⟩ : ∃ n, cs.length = n + 1 := Nat.exists_eq_add_one.2 (by omega)
  rw [ofLine, hn, all, h]
  exact congrArg (c :: ·) (all_eq_all (by omega) le_rfl)

/-- A container on a line stands between two quotes, with its separator behind. -/
theorem exists_of_ofLine_ne_nil {cs : List Char} (h : ofLine cs ≠ []) :
    ∃ front path back closes rest,
      cs = front ++ '\'' :: (path ++ '\'' :: (back ++ separator closes :: rest)) := by
  cases hsearch : search? one? cs with
  | none => exact absurd (ofLine_of_none hsearch) h
  | some found =>
    obtain ⟨suffix, ⟨front, rfl⟩, hone⟩ := search?_eq_some hsearch
    obtain ⟨path, back, closes, rfl⟩ := one?_eq_some hone
    exact ⟨front, path, back, closes, found.2, rfl⟩

theorem ofLine_of_quoteFree {cs : List Char} (h : '\'' ∉ cs) : ofLine cs = [] := by
  by_contra hne
  obtain ⟨front, path, back, closes, rest, rfl⟩ := exists_of_ofLine_ne_nil hne
  exact h (by simp)

end Container

namespace ContainerText

/-- A container is read with its separator, and then what follows. -/
theorem ofLine_append (k : ContainerText) (closes : Bool) (rest : List Char) :
    Container.ofLine (k.text ++ separator closes :: rest) =
      ⟨k.path, closes⟩ :: Container.ofLine rest := by
  have hfront : Solid Container.one? k.front
      ('\'' :: (k.path.toList ++ '\'' :: (k.back ++ separator closes :: rest))) :=
    solid_of_forall (q := (· ≠ '\'')) (fun _ cs hc => Container.one?_of_ne hc cs)
      (fun _ hc heq => k.quoteFree_front (heq ▸ hc)) _
  refine Container.ofLine_of_some ?_
  rw [k.text_append, search?_append hfront, search?, k.one?_path]
  rfl

theorem ofLine_comma (k : ContainerText) (rest : List Char) :
    Container.ofLine (k.text ++ ',' :: rest) = ⟨k.path, false⟩ :: Container.ofLine rest :=
  k.ofLine_append false rest

theorem ofLine_parenthesis (k : ContainerText) (rest : List Char) :
    Container.ofLine (k.text ++ ')' :: rest) = ⟨k.path, true⟩ :: Container.ofLine rest :=
  k.ofLine_append true rest

/-- Without its separator a container is not read, nor is any part of it. -/
theorem ofLine_of_prefix (k : ContainerText) {cs : List Char} (h : cs <+: k.text) :
    Container.ofLine cs = [] := by
  by_contra hne
  obtain ⟨front, path, back, closes, rest, rfl⟩ := Container.exists_of_ofLine_ne_nil hne
  obtain ⟨more, hmore⟩ := h
  have hcount := k.count_quote_text
  rw [← hmore] at hcount
  simp only [List.count_append, List.count_cons_self] at hcount
  have hfront : '\'' ∉ front := List.count_eq_zero.1 (by omega)
  have hpath : '\'' ∉ path := List.count_eq_zero.1 (by omega)
  rw [List.append_assoc, List.cons_append, ContainerText.text,
    append_cons_inj hfront k.quoteFree_front, List.append_assoc, List.cons_append,
    append_cons_inj hpath k.quoteFree] at hmore
  have hback : separator closes ∈ k.back := by
    rw [← hmore.2.2]
    simp
  exact k.separator_not_mem_back closes hback

end ContainerText

/-- The containers on all lines of a text. -/
def Container.onLines (text : List Char) : List Container :=
  (List.splitOn '\n' text).flatMap ofLine

theorem Container.onLines_of_oneLine {cs : List Char} (h : '\n' ∉ cs) : onLines cs = ofLine cs := by
  rw [onLines, List.splitOn_eq_singleton h, List.flatMap_singleton]

namespace ContainerText

variable (k : ContainerText)

/-- A container is on the line of what follows it. -/
theorem splitOn_append {c : Char} (hc : c ≠ '\n') {rest line : List Char}
    {lines : List (List Char)} (h : List.splitOn '\n' rest = line :: lines) :
    List.splitOn '\n' (k.text ++ c :: rest) = (k.text ++ c :: line) :: lines := by
  have hfeed : '\n' ∉ k.text ++ [c] := by simp [k.oneLine_text, hc.symm]
  obtain ⟨line', lines', hrest, hall⟩ := Lines.splitOn_prepend hfeed rest
  obtain ⟨rfl, rfl⟩ := List.cons.inj (hrest.symm.trans h)
  rw [List.append_assoc, List.append_assoc] at hall
  exact hall

theorem onLines_comma (rest : List Char) :
    Container.onLines (k.text ++ ',' :: rest) = ⟨k.path, false⟩ :: Container.onLines rest := by
  obtain ⟨line, lines, hrest⟩ := List.exists_cons_of_ne_nil (List.splitOn_ne_nil '\n' rest)
  rw [Container.onLines, Container.onLines, k.splitOn_append (by decide) hrest, hrest,
    List.flatMap_cons, List.flatMap_cons, k.ofLine_comma, List.cons_append]

theorem onLines_of_prefix {cs : List Char} (h : cs <+: k.text) : Container.onLines cs = [] := by
  have hline : '\n' ∉ cs := fun hfeed => k.oneLine_text (h.subset hfeed)
  rw [Container.onLines_of_oneLine hline, k.ofLine_of_prefix h]

end ContainerText

namespace Blanks

variable (pad : Blanks)

theorem ofLine_of_prefix {cs : List Char} (h : cs <+: pad.chars) : Container.ofLine cs = [] :=
  Container.ofLine_of_quoteFree fun hquote => pad.not_mem (by decide) (h.subset hquote)

theorem onLines_of_prefix {cs : List Char} (h : cs <+: pad.chars) : Container.onLines cs = [] := by
  have hline : '\n' ∉ cs := fun hfeed => pad.line (h.subset hfeed)
  rw [Container.onLines_of_oneLine hline, pad.ofLine_of_prefix h]

theorem onLines_feed (cs : List Char) :
    Container.onLines (pad.chars ++ '\n' :: cs) = Container.onLines cs := by
  have hpad := pad.onLines_of_prefix List.prefix_rfl
  rw [Container.onLines] at hpad ⊢
  rw [List.splitOn_append_cons_self, List.flatMap_append, hpad]
  rfl

end Blanks

/-- The first line of a list has a container on it. -/
theorem exists_splitOn_listText (k : ContainerText) (further : List FurtherText)
    (behind : List Char) :
    ∃ line lines, List.splitOn '\n' (listText k further ++ ')' :: behind) = line :: lines ∧
      Container.ofLine line ≠ [] := by
  obtain ⟨closes, rest, hlist⟩ : ∃ closes rest,
      listText k further ++ ')' :: behind = k.text ++ separator closes :: rest := by
    cases further with
    | nil => exact ⟨true, behind, rfl⟩
    | cons f further => exact ⟨false, _, by rw [listText, List.append_assoc]; rfl⟩
  obtain ⟨line, lines, hrest⟩ := List.exists_cons_of_ne_nil (List.splitOn_ne_nil '\n' rest)
  have hfeed : separator closes ≠ '\n' := by cases closes <;> decide
  refine ⟨_, lines, hlist ▸ k.splitOn_append hfeed hrest, ?_⟩
  rw [k.ofLine_append]
  exact List.cons_ne_nil _ _

/-- Of a list that is cut off, the first containers are read, each with a comma behind it. -/
theorem onLines_of_prefix_listText {k : ContainerText} {further : List FurtherText}
    {cs : List Char} (h : cs <+: listText k further) :
    Container.onLines cs <+:
      (k.path :: further.map (·.container.path)).map fun path => ⟨path, false⟩ := by
  induction further generalizing k cs with
  | nil =>
    rw [k.onLines_of_prefix h]
    exact List.nil_prefix
  | cons f further ih =>
    rcases Lines.prefix_append_cons h with hcs | ⟨rest, rfl, hrest⟩
    · rw [k.onLines_of_prefix hcs]
      exact List.nil_prefix
    · rw [k.onLines_comma, List.map_cons, List.map_cons, List.prefix_cons_inj]
      rcases f with ⟨_ | pad, container⟩
      · exact ih hrest
      · rw [FurtherText.between, Option.map_some, Option.getD_some, List.append_assoc] at hrest
        rcases Lines.prefix_append_cons hrest with hpad | ⟨line, rfl, hline⟩
        · rw [pad.onLines_of_prefix hpad]
          exact List.nil_prefix
        · rw [pad.onLines_feed]
          exact ih hline

end SchemaTransfer.Dump
