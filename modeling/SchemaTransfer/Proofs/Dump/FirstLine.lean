import Mathlib.Data.List.Basic
import Mathlib.Data.List.Forall2
import Mathlib.Data.List.TakeWhile
import SchemaTransfer.Dump.FirstLine
import SchemaTransfer.Proofs.Blank

/-!
# First lines as a dump writes them

Names between double quotes are read back, and so is the form of a line that is written as the
database writes it.
-/
namespace SchemaTransfer
open Unicode Scan

namespace Scan

theorem literal?_eq_some {w : String} {cs rest : List Char} :
    literal? w cs = some rest ↔ w.toList ++ rest = cs :=
  List.isPrefixOf?_eq_some_iff_append_eq

theorem literal?_append (w : String) (cs : List Char) : literal? w (w.toList ++ cs) = some cs :=
  literal?_eq_some.2 rfl

/-- A name between double quotes. -/
def inQuotes (name : List Char) : List Char := '"' :: (name ++ ['"'])

theorem ne_of_not_mem {c : Char} {cs : List Char} (h : c ∉ cs) : ∀ d ∈ cs, (d != c) = true :=
  fun _ hd => bne_iff_ne.2 fun hdc => h (hdc ▸ hd)

theorem takeWhile_ne_append {c : Char} {cs : List Char} (h : c ∉ cs) (rest : List Char) :
    (cs ++ c :: rest).takeWhile (· != c) = cs := by
  rw [List.takeWhile_append_of_pos (ne_of_not_mem h), List.takeWhile_cons_of_neg (by simp),
    List.append_nil]

theorem dropWhile_ne_append {c : Char} {cs : List Char} (h : c ∉ cs) (rest : List Char) :
    (cs ++ c :: rest).dropWhile (· != c) = c :: rest := by
  rw [List.dropWhile_append_of_pos (ne_of_not_mem h), List.dropWhile_cons_of_neg (by simp)]

theorem name?_inQuotes {name : List Char} (h : '"' ∉ name) (rest : List Char) :
    name? (inQuotes name ++ rest) = some (.ofList (trimRight name), rest) := by
  have hcs : inQuotes name ++ rest = '"' :: (name ++ '"' :: rest) := by simp [inQuotes]
  rw [hcs, name?, dropWhile_ne_append h, takeWhile_ne_append h]

/-- A name as it is read: free of double quotes, and without blanks at its end. -/
structure IsName (name : String) : Prop where
  quoteFree : '"' ∉ name.toList
  trimmed : trimRight name.toList = name.toList

theorem isName_takeWhile (cs : List Char) :
    IsName (.ofList (trimRight (cs.takeWhile (· != '"')))) := by
  refine ⟨fun hquote => ?_, by rw [String.toList_ofList]; exact List.rdropWhile_idempotent _ _⟩
  rw [String.toList_ofList] at hquote
  have hkept := List.mem_takeWhile_imp ((List.rdropWhile_prefix isBlank _).mem hquote)
  simp at hkept

theorem isName_of_name? {cs rest : List Char} {name : String} (h : name? cs = some (name, rest)) :
    IsName name := by
  unfold name? at h
  split at h
  · next cs =>
    split at h
    · cases h
      exact isName_takeWhile cs
    · cases h
  · cases h

theorem isName_of_qualified? {cs rest : List Char} {schema name : String}
    (h : qualified? cs = some ((schema, name), rest)) : IsName schema ∧ IsName name := by
  simp only [qualified?, Option.bind_eq_bind, Option.bind_eq_some_iff] at h
  obtain ⟨⟨s, cs'⟩, hs, cs'', -, ⟨n, rest'⟩, hn, hall⟩ := h
  cases hall
  exact ⟨isName_of_name? hs, isName_of_name? hn⟩

/-- Two names with a point between them. -/
def inQuotesBoth (schema name : List Char) : List Char := inQuotes schema ++ '.' :: inQuotes name

theorem qualified?_inQuotes {schema name : List Char} (hs : '"' ∉ schema) (hn : '"' ∉ name)
    (rest : List Char) : qualified? (inQuotesBoth schema name ++ rest) =
      some ((.ofList (trimRight schema), .ofList (trimRight name)), rest) := by
  have hpoint : literal? "." ('.' :: (inQuotes name ++ rest)) = some (inQuotes name ++ rest) := rfl
  rw [inQuotesBoth, List.append_assoc, List.cons_append, qualified?, name?_inQuotes hs]
  simp only [Option.bind_eq_bind, Option.bind_some, hpoint, name?_inQuotes hn]
  rfl

theorem lastLine?_of_not_mem {cs : List Char} (h : '\n' ∉ cs) : lastLine? cs = some cs := by
  have hnone : cs.dropWhile (· != '\n') = [] := List.dropWhile_eq_nil_iff.2 (ne_of_not_mem h)
  rw [lastLine?, hnone]

end Scan

namespace Dump
open FirstLine

/-- If there is a form at all, it is of the kind `k`. -/
def Finds (k : Kind) (o : Option Form) : Prop := ∀ form, o = some form → form.kind = k

theorem finds_some (form : Form) : Finds form.kind (some form) := by
  intro other h
  rw [Option.some.inj h]

theorem finds_none (k : Kind) : Finds k none := by
  intro form h
  cases h

theorem Finds.bind {α : Type} {k : Kind} {o : Option α} {f : α → Option Form}
    (h : ∀ a, Finds k (f a)) : Finds k (o >>= f) := by
  intro form hform
  obtain ⟨a, -, hf⟩ := Option.bind_eq_some_iff.1 hform
  exact h a form hf

theorem Finds.ite {k : Kind} {p : Prop} [Decidable p] {o o' : Option Form} (h : Finds k o)
    (h' : Finds k o') : Finds k (if p then o else o') := by
  split
  · exact h
  · exact h'

/-- The kind of the forms that each recognizer finds. -/
def kinds : List Kind :=
  [.ignored, .createTablespace, .createRole, .commentRole, .createSchema, .createSequence,
   .restartSequence, .createTable, .alterTable, .restartIdentity, .ignored, .createIndex,
   .commentColumn, .commentTable, .createDomain, .setSchema, .setPath, .createView,
   .createTrigger, .commentTrigger, .createFunction, .ignored]

theorem finds_kinds :
    List.Forall₂ (fun recognize k => ∀ cs, Finds k (recognize cs)) recognizers kinds := by
  unfold recognizers kinds
  repeat' first
    | exact .nil
    | refine .cons (fun cs => ?_) ?_
    | exact finds_some _
    | exact finds_none _
    | refine Finds.ite ?_ ?_
    | refine Finds.bind fun _ => ?_

/-- A form was found by a recognizer of its kind. -/
theorem exists_recognizer {line : List Char} {form : Form} (h : Form.ofLine? line = some form) :
    ∃ recognize, (recognize, form.kind) ∈ recognizers.zip kinds ∧
      recognize (trimLeft line) = some form := by
  obtain ⟨recognize, hmem, hrecognizes⟩ := List.exists_of_findSome?_eq_some h
  have hfirst : (recognizers.zip kinds).map Prod.fst = recognizers := List.map_fst_zip (by decide)
  rw [← hfirst] at hmem
  obtain ⟨⟨recognize, k⟩, hzip, rfl⟩ := List.mem_map.1 hmem
  have hkind : form.kind = k :=
    (List.forall₂_iff_zip.1 finds_kinds).2 hzip (trimLeft line) form hrecognizes
  rw [hkind]
  exact ⟨recognize, hzip, hrecognizes⟩

/-- A form was found by the recognizer of its kind, if there is only one. -/
theorem recognizes_of_ofLine? {recognize : List Char → Option Form} {line : List Char} {form : Form}
    (honly : ∀ other, (other, form.kind) ∈ recognizers.zip kinds → other = recognize)
    (h : Form.ofLine? line = some form) : recognize (trimLeft line) = some form := by
  obtain ⟨other, hmem, hform⟩ := exists_recognizer h
  exact honly other hmem ▸ hform

theorem isName_of_createTable {line : List Char} {schema name : String}
    (h : Form.ofLine? line = some (.createTable schema name)) : IsName schema ∧ IsName name := by
  have htable : createTable? (trimLeft line) = some (.createTable schema name) :=
    recognizes_of_ofLine? (by simp [recognizers, kinds, Form.kind]) h
  simp only [createTable?, Option.bind_eq_bind, Option.bind_eq_some_iff] at htable
  obtain ⟨cs, -, ⟨⟨s, n⟩, cs'⟩, hqualified, cs'', -, _, -, hform⟩ := htable
  cases hform
  exact isName_of_qualified? hqualified

theorem isName_of_setSchema {line : List Char} {schema : String}
    (h : Form.ofLine? line = some (.setSchema schema)) : IsName schema := by
  have hset : setSchema? (trimLeft line) = some (.setSchema schema) :=
    recognizes_of_ofLine? (by simp [recognizers, kinds, Form.kind]) h
  simp only [setSchema?, Option.bind_eq_bind, Option.bind_eq_some_iff] at hset
  obtain ⟨_, -, cs, -, _, -, hform⟩ := hset
  cases hform
  exact isName_takeWhile _

/-- The form that a recognizer finds on a line, if none before it finds any. -/
theorem ofLine?_eq_some {n : Nat} {recognize : List Char → Option Form}
    {others : List (List Char → Option Form)} (hn : recognizers.drop n = recognize :: others)
    {line : List Char} {form : Form} (htrim : trimLeft line = line)
    (hbefore : ((recognizers.take n).findSome? fun recognize => recognize line) = none)
    (h : recognize line = some form) : Form.ofLine? line = some form := by
  rw [Form.ofLine?, htrim, ← List.take_append_drop n recognizers, List.findSome?_append, hbefore,
    Option.none_or, hn, List.findSome?_cons, h]

theorem ofLine?_congr {line other : List Char} (h : trimLeft line = trimLeft other) :
    Form.ofLine? line = Form.ofLine? other := by
  rw [Form.ofLine?, h]
  rfl

/-- The words before the name of an index. -/
def indexWords (unique : Bool) : List Char :=
  (if unique then "CREATE UNIQUE INDEX " else "CREATE INDEX ").toList

end Dump

end SchemaTransfer
