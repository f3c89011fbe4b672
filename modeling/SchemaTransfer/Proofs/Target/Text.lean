import Mathlib.Data.List.Forall2
import SchemaTransfer.Target.Script

/-!
# Texts of scripts

The text of a script consists of the texts of its items, one below the other. What kind of statement
a text is can be told from the words that it begins with, but for the fixed lines.
-/
namespace SchemaTransfer

/-- Whether the text begins with the words. -/
def begins (words text : String) : Bool := words.toList.isPrefixOf text.toList

theorem begins_iff {words text : String} :
    begins words text = true ↔ ∃ rest, text = words ++ rest := by
  unfold begins
  rw [List.isPrefixOf_iff_prefix]
  constructor
  · rintro ⟨rest, hrest⟩
    exact ⟨.ofList rest, String.toList_inj.1 (by simp [hrest])⟩
  · rintro ⟨rest, rfl⟩
    simp

theorem begins_or_begins {v w text : String} (hv : begins v text = true)
    (hw : begins w text = true) : begins v w = true ∨ begins w v = true := by
  unfold begins at hv hw ⊢
  rw [List.isPrefixOf_iff_prefix] at hv hw ⊢
  rw [List.isPrefixOf_iff_prefix]
  exact List.prefix_or_prefix_of_prefix hv hw

/-- A text begins in one way only. -/
theorem begins_eq_false {v w text : String} (hv : begins v text = true)
    (h : (begins v w || begins w v) = false) : begins w text = false := by
  by_contra hw
  rw [Bool.not_eq_false] at hw
  rw [Bool.or_eq_false_iff] at h
  rcases begins_or_begins hv hw with hvw | hwv
  · rw [h.1] at hvw
    cases hvw
  · rw [h.2] at hwv
    cases hwv

namespace Item

/-- The words with which the statements of a kind begin. A fixed line is its own words. -/
def words : Item → String
  | blank => ""
  | clientEncoding => "set client_encoding to UTF8;"
  | remark text => text
  | createTablespace .. => "CREATE TABLESPACE "
  | createRole .. => "CREATE ROLE "
  | commentRole .. => "COMMENT ON ROLE "
  | createSchema .. => "CREATE SCHEMA "
  | createSequence .. => "CREATE SEQUENCE "
  | restartSequence .. => "ALTER SEQUENCE "
  | createDomain .. => "CREATE DOMAIN "
  | createTable .. => "CREATE TABLE "
  | commentTable .. => "COMMENT ON TABLE "
  | commentColumn .. => "COMMENT ON COLUMN "
  | createIndex unique .. => if unique then "CREATE UNIQUE INDEX " else "CREATE INDEX "
  | addPrimaryKey .. | addUnique .. | addForeignKey .. | addCheck .. | validate ..
  | setDefault .. => "ALTER TABLE "
  | setValue .. => "SELECT setval('"
  | unparsable .. => "-- WARNING: does not parse as PostgreSQL: "
  | searchPath .. => "set search_path TO "
  | createView .. => "CREATE VIEW "
  | commentView .. => "COMMENT ON VIEW "
  | createFunction .. | createTriggerFunction .. => "CREATE FUNCTION "
  | commentFunction .. => "COMMENT ON FUNCTION "

theorem begins_render (item : Item) : begins item.words item.render = true := by
  rw [begins_iff]
  cases item with
  | blank => exact ⟨"", rfl⟩
  | clientEncoding => exact ⟨"", rfl⟩
  | remark text => exact ⟨"", String.append_empty.symm⟩
  | unparsable problem => exact ⟨problem, rfl⟩
  | createSequence schema name options owner =>
    unfold render words
    dsimp only [unlines, List.cons_append]
    rw [String.intercalate_cons_of_ne_nil (by simp [SequenceOptions.lines])]
    simp only [toString, String.append_assoc]
    exact ⟨_, rfl⟩
  | addPrimaryKey | addUnique | addForeignKey | addCheck | validate | setDefault =>
    unfold render words
    simp only [addKey, alter, toString, String.append_assoc]
    exact ⟨_, rfl⟩
  | createIndex unique name table columns tablespace =>
    unfold render words
    simp only [String.append_assoc]
    exact ⟨_, rfl⟩
  | _ =>
    unfold render words
    simp only [toString, String.append_assoc]
    exact ⟨_, rfl⟩

theorem begins_render_eq_false {item : Item} (v : String) {w : String} (hv : item.words = v)
    (h : (begins v w || begins w v) = false) : begins w item.render = false :=
  begins_eq_false (hv ▸ item.begins_render) h

end Item

/-- Each item of the script has a text of its own in that of the script, and the text of an item
that is picked says what it is picked for. -/
def Script.Tells {α : Type} (s : Script) (pick : Item → Option α) (Says : α → String → Prop) :
    Prop :=
  ∃ texts, s.render = unlines texts ++ "\n" ∧
    List.Forall₂ (fun item text => ∀ a, pick item = some a → Says a text) s texts

theorem Script.tells {α : Type} {pick : Item → Option α} {Says : α → String → Prop} (s : Script)
    (h : ∀ item a, pick item = some a → Says a item.render) : s.Tells pick Says := by
  refine ⟨s.map Item.render, rfl, ?_⟩
  rw [List.forall₂_map_right_iff, List.forall₂_same]
  exact fun item _ => h item

end SchemaTransfer
