import SchemaTransfer.Proofs.Casing
import SchemaTransfer.Proofs.Dump.FirstLine
import SchemaTransfer.Target.Script

/-!
# Identifiers of names

A name reaches the target in its normalized form, between double quotes if that is a reserved word.
No double quote comes from the name itself, so two names become one identifier exactly if they have
one normalized form.
-/
namespace SchemaTransfer
open Unicode

theorem quoteFree_normalize {name : String} (h : '"' ∉ name.toList) :
    '"' ∉ (normalize name).toList := by
  intro hquote
  unfold normalize lowerCase withoutDashes at hquote
  rw [String.toList_ofList, String.toList_ofList] at hquote
  exact h (List.mem_filter.1 (Casing.mem_of_mem_lowerFrom (by decide) hquote)).1

theorem quoteReserved_inj {a b : String} (ha : '"' ∉ a.toList) (hb : '"' ∉ b.toList) :
    quoteReserved a = quoteReserved b ↔ a = b := by
  have hquoted {x y : String} (hy : '"' ∉ y.toList) : "\"" ++ x ++ "\"" ≠ y := by
    rintro rfl
    simp at hy
  unfold quoteReserved
  constructor
  · intro h
    split at h <;> split at h
    · exact (String.append_right_inj _).1 ((String.append_left_inj _).1 h)
    · exact absurd h (hquoted hb)
    · exact absurd h.symm (hquoted ha)
    · exact h
  · rintro rfl
    rfl

/-- Two names become one identifier exactly if they are the same but for case and hyphens. -/
theorem identifier_inj {a b : String} (ha : '"' ∉ a.toList) (hb : '"' ∉ b.toList) :
    identifier a = identifier b ↔ normalize a = normalize b :=
  quoteReserved_inj (quoteFree_normalize ha) (quoteFree_normalize hb)

/-- Within a schema a table is told by its identifier. -/
theorem TableName.render_inj {a b : TableName} (h : a.schema = b.schema) :
    a.render = b.render ↔ identifier a.name = identifier b.name := by
  unfold TableName.render qualifiedName
  rw [h]
  exact String.append_right_inj _

end SchemaTransfer
