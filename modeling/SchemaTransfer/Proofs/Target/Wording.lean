import SchemaTransfer.Proofs.Target.Books
import SchemaTransfer.Proofs.Target.Text

/-!
# Words of the statements that are counted

A statement is of the kind that it is counted under, which its text shows: it begins with the words
of the kind and goes on to the others.
-/
namespace SchemaTransfer

/-- The words stand in the text in their order, the first of them at its front. -/
def HasWords : List String → String → Prop
  | [], _ => True
  | [w], text => ∃ rest, text = w ++ rest
  | w :: v :: ws, text => ∃ between rest, text = w ++ (between ++ rest) ∧ HasWords (v :: ws) rest

/-- The words of a kind of statements. -/
def Counter.words : Counter → List String
  | .tablespaces => ["CREATE TABLESPACE ", " LOCATION '"]
  | .roles => ["CREATE ROLE "]
  | .schemas => ["CREATE SCHEMA "]
  | .sequences => ["CREATE SEQUENCE "]
  | .domains => ["CREATE DOMAIN ", " AS "]
  | .tables => ["CREATE TABLE ", " (\n", "\n)"]
  | .primaryKeys => ["ALTER TABLE ", " ADD", " PRIMARY KEY "]
  | .uniqueConstraints => ["ALTER TABLE ", " ADD", " UNIQUE "]
  | .indexes => ["CREATE ", "INDEX ", " ON "]
  | .foreignKeys => ["ALTER TABLE ", " ADD CONSTRAINT ", " FOREIGN KEY ", " REFERENCES "]
  | .identities => ["CREATE SEQUENCE ", "  OWNED BY "]
  | .checkConstraints => ["ALTER TABLE ", " ADD", " CHECK "]
  | .views => ["CREATE VIEW "]
  | .functions => ["CREATE FUNCTION ", " AS\n$func$\n", "\n$func$;"]
  | .triggers => ["CREATE FUNCTION ", "() RETURNS trigger LANGUAGE plpgsql", "\n$func$;"]
  | .probeFailures => ["-- WARNING: does not parse as PostgreSQL: "]

theorem hasWords_of_words {item : Item} {w : String} (h : item.words = w) :
    HasWords [w] item.render :=
  begins_iff.1 (h ▸ item.begins_render)

/-- The sequence of an identity says in its last line what owns it. -/
theorem hasWords_identity (schema name : String) (options : SequenceOptions)
    (owner : TableName × String) : HasWords Counter.identities.words
      (Item.createSequence schema name options (some owner)).render := by
  have hlines : (s!"CREATE SEQUENCE {qualifiedName schema name}" :: options.lines) ≠ [] :=
    List.cons_ne_nil _ _
  unfold Item.render
  dsimp only [Option.map_some, Option.toList_some, unlines]
  rw [String.intercalate_append_of_ne_nil hlines (List.cons_ne_nil _ _),
    String.intercalate_singleton,
    String.intercalate_cons_of_ne_nil (by simp [SequenceOptions.lines])]
  refine ⟨qualifiedName schema name ++ "\n" ++ "\n".intercalate options.lines ++ "\n",
    "  OWNED BY " ++ (owner.1.render ++ "." ++ identifier owner.2 ++ ";"), ?_, _, rfl⟩
  simp only [toString, String.append_assoc]

theorem Item.hasWords {item : Item} {k : Counter} (h : item.counter? = some k) :
    HasWords k.words item.render := by
  cases item with
  | createTablespace name location =>
    cases h
    unfold render
    simp only [toString, String.append_assoc]
    exact ⟨_, _, rfl, _, rfl⟩
  | createRole | createSchema | createView | unparsable =>
    cases h
    exact hasWords_of_words rfl
  | createSequence schema name options owner =>
    cases owner with
    | none =>
      cases h
      exact hasWords_of_words rfl
    | some owner =>
      cases h
      exact hasWords_identity schema name options owner
  | createDomain schema name base =>
    cases h
    unfold render
    simp only [toString, String.append_assoc]
    exact ⟨_, _, rfl, _, rfl⟩
  | createTable table columns tablespace =>
    cases h
    unfold render
    simp only [toString, String.append_assoc]
    exact ⟨_, _, rfl, _, _, rfl, _, rfl⟩
  | addPrimaryKey | addUnique =>
    cases h
    unfold render
    simp only [addKey, alter, String.append_assoc]
    exact ⟨_, _, rfl, _, _, rfl, _, rfl⟩
  | createIndex unique name table columns tablespace =>
    cases h
    have hwords : (if unique then "CREATE UNIQUE INDEX " else "CREATE INDEX ") =
        "CREATE " ++ ((if unique then "UNIQUE " else "") ++ "INDEX ") := by
      cases unique <;> decide
    unfold render
    dsimp only
    rw [hwords]
    simp only [String.append_assoc]
    exact ⟨_, _, rfl, _, _, rfl, _, rfl⟩
  | addForeignKey table name key =>
    cases h
    unfold render
    simp only [alter, String.append_assoc]
    exact ⟨_, _, rfl, _, _, rfl, _, _, rfl, _, rfl⟩
  | addCheck table name condition =>
    cases h
    unfold render
    simp only [alter, String.append_assoc]
    exact ⟨_, _, rfl, _, _, rfl, _, rfl⟩
  | createFunction schema name body =>
    cases h
    unfold render
    simp only [functionBody, String.append_assoc]
    exact ⟨_, _, rfl, _, _, rfl, "", String.append_empty.symm⟩
  | createTriggerFunction schema name body =>
    cases h
    unfold render
    refine ⟨qualifiedName schema name, "() RETURNS trigger LANGUAGE plpgsql" ++
      ((" AS\n$func$\n" ++ body) ++ "\n$func$;"), ?_, _, _, rfl, "", String.append_empty.symm⟩
    simp only [functionBody, String.append_assoc]
  | _ => cases h

end SchemaTransfer
