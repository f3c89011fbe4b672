import SchemaTransfer.Proofs.Load.Schemas
import SchemaTransfer.Proofs.Target.Schemas

/-!
# Definition before use

The three scripts are run one after the other. The schema of whatever they create stands before
it, and so does the role that a schema is given to. A view is an exception: to declare one does not
mention its schema, so that the schema is created only if another statement of the dump mentions
it.
-/
namespace SchemaTransfer
open Load Dump

/-- The three scripts in a row. -/
def Scripts.items (s : Scripts) : Script := s.before ++ s.after ++ s.unsure

/-- What stands before an item of the scripts. The schema of an object is created before it
exactly if some statement of the dump mentions that schema, which is so for every object but a
view. The owner of a schema is created before it. -/
theorem convert_definitions {withTablespaces : Bool} {verdicts : List Verdict}
    {lines : List (List Char)} {r : Conversion}
    (hr : (convert withTablespaces verdicts lines).outcome = .ok r)
    {pre post : Script} {item : Item} (hsplit : r.scripts.items = pre ++ item :: post) :
    (∀ schema, item.qualifier? = some schema →
      ((∃ other owner, .createSchema other owner ∈ pre ∧ identifier other = identifier schema) ↔
        ∃ other, Mentions ({}, {}) (statements lines) other ∧
          identifier other = identifier schema) ∧
      (item.isView = false → ∃ owner, .createSchema schema owner ∈ pre)) ∧
    ∀ schema owner, item = .createSchema schema (some owner) → .createRole owner ∈ pre := by
  have hconverts := converts_of_ok hr
  have hkept : r.session.catalog.WellKept := load_wellKept Catalog.wellKept_empty hconverts.loads
  obtain ⟨hschemas, hroles⟩ := emitScripts_order hkept hconverts.emits hsplit
  have hmentions (other : String) : r.session.catalog.schemas.contains other = true ↔
      Mentions ({}, {}) (statements lines) other := by
    rw [load_schemas hconverts.loads]
    exact or_iff_right Bool.false_ne_true
  refine ⟨fun schema hschema => ?_, hroles⟩
  obtain ⟨hcreated, hknown⟩ := hschemas schema hschema
  refine ⟨?_, fun hview => (hcreated schema).2 (hknown hview)⟩
  constructor
  · rintro ⟨other, owner, hmem, hsame⟩
    exact ⟨other, (hmentions other).1 ((hcreated other).1 ⟨owner, hmem⟩), hsame⟩
  · rintro ⟨other, hother, hsame⟩
    obtain ⟨owner, hmem⟩ := (hcreated other).2 ((hmentions other).2 hother)
    exact ⟨other, owner, hmem, hsame⟩

/-- A schema with an owner that is declared nowhere else, and a function of it. -/
def ownedSchema : List (List Char) :=
  ["CREATE SCHEMA \"S\" AUTHORIZATION \"R\";", "CREATE FUNCTION \"S\".\"F\" ()", "RETURN 1;"].map
    String.toList

theorem convert_ownedSchema : ∃ r, (convert false [] ownedSchema).outcome = .ok r ∧
    (∃ pre item post owner, r.scripts.items = pre ++ item :: post ∧
      item.qualifier? = some "S" ∧ .createSchema "S" owner ∈ pre) ∧
    ∃ pre post, r.scripts.items = pre ++ .createSchema "S" (some "R") :: post ∧
      .createRole "R" ∈ pre := by
  have hitems : ((convert false [] ownedSchema).outcome.toOption.map fun r =>
      (r.scripts.items.any fun item => item.qualifier? = some "S" ∧ item.isView = false,
        r.scripts.items.contains (.createSchema "S" (some "R")))) = some (true, true) := by
    decide +kernel
  obtain ⟨r, hr, hitems⟩ := exists_ok_of_toOption_map hitems
  obtain ⟨hfunction, hschema⟩ := Prod.mk.inj hitems
  obtain ⟨item, hitem, hqualifier⟩ := List.any_eq_true.1 hfunction
  obtain ⟨hqualifier, hview⟩ := of_decide_eq_true hqualifier
  obtain ⟨pre, post, hsplit⟩ := List.append_of_mem hitem
  obtain ⟨pre', post', hsplit'⟩ := List.append_of_mem (List.contains_iff_mem.1 hschema)
  obtain ⟨owner, hmem⟩ := ((convert_definitions hr hsplit).1 "S" hqualifier).2 hview
  refine ⟨r, hr, ⟨pre, item, post, owner, hsplit, hqualifier, hmem⟩, pre', post', hsplit', ?_⟩
  exact (convert_definitions hr hsplit').2 "S" "R" rfl

/-- A view alone leaves its schema without a statement that creates it. -/
theorem view_without_schema : ¬∀ (withTablespaces : Bool) (verdicts : List Verdict)
    (lines : List (List Char)) (r : Conversion),
    (convert withTablespaces verdicts lines).outcome = .ok r →
    ∀ pre item post, r.scripts.items = pre ++ item :: post →
      ∀ schema, item.qualifier? = some schema →
        ∃ other owner, .createSchema other owner ∈ pre ∧ identifier other = identifier schema := by
  intro h
  let viewAlone : List (List Char) := ["CREATE VIEW \"V\".\"X\" AS SELECT A FROM S.T;".toList]
  have hitems : ((convert false [] viewAlone).outcome.toOption.map fun r =>
      (r.scripts.items.any fun item => item.qualifier? = some "V",
        r.scripts.items.any Item.isSchema)) = some (true, false) := by
    decide +kernel
  obtain ⟨r, hr, hitems⟩ := exists_ok_of_toOption_map hitems
  obtain ⟨hview, hschema⟩ := Prod.mk.inj hitems
  obtain ⟨item, hitem, hqualifier⟩ := List.any_eq_true.1 hview
  obtain ⟨pre, post, hsplit⟩ := List.append_of_mem hitem
  obtain ⟨other, owner, hmem, -⟩ :=
    h false [] viewAlone r hr pre item post hsplit "V" (of_decide_eq_true hqualifier)
  have hmem' : Item.createSchema other owner ∈ r.scripts.items := by
    rw [hsplit]
    exact List.mem_append_left _ hmem
  exact absurd rfl (List.any_eq_false.1 hschema _ hmem')

end SchemaTransfer
