import SchemaTransfer.Catalog.Table
import SchemaTransfer.Dump.ConstraintLine
import SchemaTransfer.Proofs.Dump.Layout

/-!
# Lists of columns as a dump writes them

A list has one column on a line. The parenthesis opens before the first column and closes behind
the last.
-/
namespace SchemaTransfer.Dump
open Unicode Scan

/-- A name with the blanks that pad it before its closing quote. -/
structure PaddedName where
  name : String
  pad : List Char := []
  doubleQuoteFree : '"' ∉ name.toList := by decide
  dashFree : DashFree name.toList := by decide +kernel
  trimmed : trimRight name.toList = name.toList := by decide
  blank : allBlank pad = true := by decide
  oneLine : '\n' ∉ name.toList ++ pad := by decide

namespace PaddedName

/-- What stands between the quotes. -/
def inside (n : PaddedName) : List Char := n.name.toList ++ n.pad

def text (n : PaddedName) : List Char := inQuotes n.inside

theorem not_mem_pad (n : PaddedName) {c : Char} (h : isBlank c = false) : c ∉ n.pad :=
  not_mem_of_all n.blank h

theorem doubleQuoteFree_inside (n : PaddedName) : '"' ∉ n.inside :=
  List.not_mem_append n.doubleQuoteFree (n.not_mem_pad (by decide))

theorem dashFree_inside (n : PaddedName) : DashFree n.inside :=
  n.dashFree.append (n.not_mem_pad (by decide))

theorem ofList_trimRight_inside (n : PaddedName) : String.ofList (trimRight n.inside) = n.name := by
  rw [inside, trimRight_append_of_allBlank n.blank, n.trimmed, String.ofList_toList]

theorem name?_text (n : PaddedName) (rest : List Char) :
    name? (n.text ++ rest) = some (n.name, rest) := by
  rw [text, name?_inQuotes n.doubleQuoteFree_inside, n.ofList_trimRight_inside]

theorem text_append (n : PaddedName) (rest : List Char) :
    n.text ++ rest = '"' :: (n.inside ++ '"' :: rest) := by
  rw [text, inQuotes, List.cons_append, List.append_assoc, List.singleton_append]

theorem dashFree_text_append (n : PaddedName) {rest : List Char} (h : DashFree rest) :
    DashFree (n.text ++ rest) := by
  rw [n.text_append]
  exact dashFree_cons (by decide) (n.dashFree_inside.append_cons (by decide) h)

theorem oneLine_text (n : PaddedName) : '\n' ∉ n.text := by
  have hinside : '\n' ∉ n.inside := n.oneLine
  simp [text, inQuotes, hinside]

/-- Two names with a point between them. -/
def both (schema name : PaddedName) : List Char := inQuotesBoth schema.inside name.inside

theorem both_append (schema name : PaddedName) (rest : List Char) :
    both schema name ++ rest = schema.text ++ '.' :: (name.text ++ rest) := by
  rw [both, inQuotesBoth, List.append_assoc, List.cons_append]
  rfl

theorem qualified?_both (schema name : PaddedName) (rest : List Char) :
    qualified? (both schema name ++ rest) = some ((schema.name, name.name), rest) := by
  rw [both, qualified?_inQuotes schema.doubleQuoteFree_inside name.doubleQuoteFree_inside,
    schema.ofList_trimRight_inside, name.ofList_trimRight_inside]

theorem dashFree_both_append (schema name : PaddedName) {rest : List Char} (h : DashFree rest) :
    DashFree (both schema name ++ rest) := by
  rw [both_append]
  exact schema.dashFree_text_append (dashFree_cons (by decide) (name.dashFree_text_append h))

theorem dashFree_both (schema name : PaddedName) : DashFree (both schema name) := by
  have h := dashFree_both_append schema name (dashFree_of_not_mem List.not_mem_nil)
  rwa [List.append_nil] at h

theorem endsContent_both (schema name : PaddedName) : endsContent (both schema name) = true :=
  any_getLast?_append _ (any_getLast?_append ['.'] (any_getLast?_append ('"' :: name.inside)
    (by decide)))

theorem oneLine_both (schema name : PaddedName) : '\n' ∉ both schema name :=
  List.not_mem_append schema.oneLine_text
    (List.not_mem_append (s := ['.']) (by decide) name.oneLine_text)

end PaddedName

inductive Direction
  | ascending
  | descending

def Direction.text : Direction → String
  | ascending => "ASC"
  | descending => "DESC"

/-- A column of a list, with its direction where an index gives one. -/
structure ItemText where
  name : PaddedName
  direction : Option Direction := none

namespace ItemText

def directionText : Option Direction → List Char
  | none => []
  | some d => ' ' :: d.text.toList

def separatorText (closes : Bool) : List Char := if closes then [')'] else [',']

/-- The line of a column. -/
def line (i : ItemText) (opens closes : Bool) : List Char :=
  (if opens then ['('] else []) ++
    (i.name.text ++ (directionText i.direction ++ separatorText closes))

def column (i : ItemText) : IndexColumn := ⟨i.name.name, i.direction.map (·.text)⟩

theorem content_line (i : ItemText) (opens closes : Bool) : Content (i.line opens closes) := by
  have hdirection : '-' ∉ directionText i.direction ∧ '\n' ∉ directionText i.direction := by
    rcases i.direction with _ | _ | _ <;> decide
  have hseparator : '-' ∉ separatorText closes ∧ '\n' ∉ separatorText closes ∧
      endsContent (separatorText closes) = true := by
    cases closes <;> decide
  have hname : DashFree (i.name.text ++ (directionText i.direction ++ separatorText closes)) :=
    i.name.dashFree_text_append
      (dashFree_of_not_mem (List.not_mem_append hdirection.1 hseparator.1))
  refine content_of_dashFree ?_ ?_ ?_ (hname.behind (by cases opens <;> decide))
  · exact List.not_mem_append (by cases opens <;> decide) (List.not_mem_append
      i.name.oneLine_text (List.not_mem_append hdirection.2 hseparator.2.1))
  · cases opens <;> rfl
  · exact any_getLast?_append _ (any_getLast?_append _ (any_getLast?_append _ hseparator.2.2))

theorem ofLine?_line (i : ItemText) (opens closes : Bool) (m : Margin) :
    ListItem.ofLine? (m.around (i.line opens closes)) =
      some ⟨i.name.name, i.direction.map (·.text), closes⟩ := by
  have hopens : optional (literal? "(") (trimLeft (m.around (i.line opens closes))) =
      i.name.text ++ (directionText i.direction ++ (separatorText closes ++ m.behind)) := by
    rw [m.trimLeft_around (i.content_line opens closes), line, List.append_assoc,
      List.append_assoc, List.append_assoc]
    cases opens <;> rfl
  have hitem : ListItem.item? (trimLeft (i.name.text ++
      (directionText i.direction ++ (separatorText closes ++ m.behind)))) =
        some (i.name.name, directionText i.direction ++ (separatorText closes ++ m.behind)) := by
    rw [← i.name.name?_text, i.name.text_append]
    rfl
  have hdirection : ListItem.direction?
      (directionText i.direction ++ (separatorText closes ++ m.behind)) =
        i.direction.map fun d => (d.text, separatorText closes ++ m.behind) := by
    rcases i.direction with _ | _ | _
    · cases closes <;> rfl
    · rfl
    · rfl
  have hseparator : oneOf? [",", ")"] (trimLeft (separatorText closes ++ m.behind)) =
      some (if closes then ")" else ",", m.behind) := by
    cases closes <;> rfl
  have hfinish : finish? m.behind = some () := if_pos m.allBlank_behind
  have hcloses : ((if closes then ")" else ",") == ")") = closes := by cases closes <;> rfl
  unfold ListItem.ofLine?
  rw [hopens]
  simp only [Option.bind_eq_bind, hitem, Option.bind_some, hdirection]
  cases i.direction with
  | none =>
    simp only [directionText, List.nil_append, Option.map_none, hseparator, hfinish,
      Option.bind_some, hcloses]
    rfl
  | some d =>
    simp only [Option.map_some, hseparator, hfinish, Option.bind_some, hcloses]
    rfl

end ItemText

/-- The lines of a list, of which the first opens the parenthesis. -/
def listLines (opens : Bool) : List ItemText → List (List Char)
  | [] => []
  | [i] => [i.line opens true]
  | i :: items => i.line opens false :: listLines false items

theorem content_listLines (opens : Bool) (items : List ItemText) :
    ∀ text ∈ listLines opens items, Content text := by
  induction items generalizing opens with
  | nil => exact fun _ h => absurd h List.not_mem_nil
  | cons i items ih =>
    cases items with
    | nil => exact List.forall_mem_singleton.2 (i.content_line opens true)
    | cons next items => exact List.forall_mem_cons.2 ⟨i.content_line opens false, ih false⟩

theorem listLines_ne_nil {items : List ItemText} (h : items ≠ []) {opens : Bool} :
    listLines opens items ≠ [] := by
  cases items with
  | nil => exact absurd rfl h
  | cons i items => cases items <;> exact List.cons_ne_nil _ _

end SchemaTransfer.Dump
