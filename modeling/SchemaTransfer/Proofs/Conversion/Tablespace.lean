import SchemaTransfer.Proofs.Load.Tablespace
import SchemaTransfer.Proofs.Target.Tablespace

/-!
# Tablespaces before use

What the dump says about the storage of a table is passed on, whether or not the dump creates the
tablespace. So a statement that asks for one may stand in a script that never creates it: where the
dump does not create it, or creates it without a container.
-/
namespace SchemaTransfer
open Load Dump

/-- Ahead of a statement that asks for a tablespace, one of that name is created exactly if the
dump gives containers to one. What it asks for is what its table has, and stands at its end. -/
theorem convert_tablespaces {verdicts : List Verdict} {lines : List (List Char)} {r : Conversion}
    (hr : (convert true verdicts lines).outcome = .ok r) {pre post : Script} {item : Item}
    (hsplit : r.scripts.before ++ r.scripts.after = pre ++ item :: post) {name : String}
    (hitem : item.tablespace? = some name) :
    ((∃ other location, .createTablespace other location ∈ pre ∧
        identifier other = identifier name) ↔
      ∃ other, (statements lines).flatMap (containersOf other) ≠ [] ∧
        identifier other = identifier name) ∧
    (∃ x ∈ r.session.catalog.tables, item.storedTable? = some ⟨x.1.name, x.2.name⟩ ∧
      item.placeIn x.2 = some name) ∧
    ∃ front, item.render = front ++ "TABLESPACE " ++ identifier name ++ ";" := by
  have hconverts := converts_of_ok hr
  obtain ⟨hpre, htable⟩ := emitScripts_tablespaces hconverts.emits hsplit hitem
  have hcontainers (other : String) : r.session.catalog.containers other =
      (statements lines).flatMap (containersOf other) := load_containers hconverts.loads
  have hcreated (other location : String) : .createTablespace other location ∈ pre ↔
      ((statements lines).flatMap (containersOf other)).head? = some location := by
    rw [hpre, ← hcontainers, Catalog.head?_containers]
  refine ⟨?_, htable, Item.render_of_tablespace? hitem⟩
  constructor
  · rintro ⟨other, location, hmem, hsame⟩
    refine ⟨other, fun hnil => ?_, hsame⟩
    have hlocation := (hcreated other location).1 hmem
    rw [hnil] at hlocation
    cases hlocation
  · rintro ⟨other, hsome, hsame⟩
    obtain ⟨location, hlocation⟩ :=
      Option.ne_none_iff_exists'.1 (mt List.head?_eq_none_iff.1 hsome)
    exact ⟨other, location, (hcreated other location).2 hlocation, hsame⟩

/-- A tablespace that is created behind the table that is put into it. -/
def tablespaceBehindTable : List (List Char) :=
  ["CREATE TABLE \"S\".\"T\"  (", "  \"A\" INTEGER )", "  IN \"TS\";",
    "CREATE TABLESPACE \"TS\" MANAGED BY DATABASE", "  USING (FILE '/ts' 2560);"].map String.toList

theorem convert_tablespaceBehindTable :
    ∃ r, (convert true [] tablespaceBehindTable).outcome = .ok r ∧
      ∃ pre item post, r.scripts.before ++ r.scripts.after = pre ++ item :: post ∧
        item.tablespace? = some "TS" ∧
        (∃ other location, .createTablespace other location ∈ pre ∧
          identifier other = identifier "TS") ∧
        (∃ x ∈ r.session.catalog.tables, item.storedTable? = some ⟨x.1.name, x.2.name⟩ ∧
          item.placeIn x.2 = some "TS") ∧
        ∃ front, item.render = front ++ "TABLESPACE " ++ identifier "TS" ++ ";" := by
  have hitems : ((convert true [] tablespaceBehindTable).outcome.toOption.map fun r =>
      (r.scripts.before ++ r.scripts.after).any fun item => item.tablespace? = some "TS") =
      some true := by decide +kernel
  obtain ⟨r, hr, hitems⟩ := exists_ok_of_toOption_map hitems
  obtain ⟨item, hmem, hitem⟩ := List.any_eq_true.1 hitems
  obtain ⟨pre, post, hsplit⟩ := List.append_of_mem hmem
  have hname : item.tablespace? = some "TS" := of_decide_eq_true hitem
  obtain ⟨hcreated, hplace⟩ := convert_tablespaces hr hsplit hname
  exact ⟨r, hr, pre, item, post, hsplit, hname, hcreated.2 ⟨"TS", by decide +kernel, rfl⟩, hplace⟩

/-- A table alone asks for a tablespace that no statement creates. -/
theorem table_without_tablespace : ¬∀ (verdicts : List Verdict) (lines : List (List Char))
    (r : Conversion), (convert true verdicts lines).outcome = .ok r →
    ∀ pre item post, r.scripts.before ++ r.scripts.after = pre ++ item :: post →
      ∀ name, item.tablespace? = some name →
        ∃ other location, .createTablespace other location ∈ pre ∧
          identifier other = identifier name := by
  intro h
  let tableAlone : List (List Char) :=
    ["CREATE TABLE \"S\".\"T\"  (", "  \"A\" INTEGER )", "  IN \"TS\";"].map String.toList
  have hitems : ((convert true [] tableAlone).outcome.toOption.map fun r =>
      ((r.scripts.before ++ r.scripts.after).any fun item => item.tablespace? = some "TS",
        (r.scripts.before ++ r.scripts.after).any Item.isTablespace)) = some (true, false) := by
    decide +kernel
  obtain ⟨r, hr, hitems⟩ := exists_ok_of_toOption_map hitems
  obtain ⟨htable, hnone⟩ := Prod.mk.inj hitems
  obtain ⟨item, hmem, hitem⟩ := List.any_eq_true.1 htable
  obtain ⟨pre, post, hsplit⟩ := List.append_of_mem hmem
  obtain ⟨other, location, hcreated, -⟩ :=
    h [] tableAlone r hr pre item post hsplit "TS" (of_decide_eq_true hitem)
  have hcreated' : Item.createTablespace other location ∈ r.scripts.before ++ r.scripts.after := by
    rw [hsplit]
    exact List.mem_append_left _ hcreated
  exact absurd rfl (List.any_eq_false.1 hnone _ hcreated')

end SchemaTransfer
