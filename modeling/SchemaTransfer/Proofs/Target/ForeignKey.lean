import SchemaTransfer.Proofs.Names.ForeignKey
import SchemaTransfer.Proofs.Target.After

/-!
# Foreign keys in the scripts

The foreign keys that the second script adds are those that the third one validates: the same
tables and names, in the same order, once for every foreign key of the catalog. Their names are not
given out but told from the table, so it does not matter which scripts are emitted in between.
-/
namespace SchemaTransfer

/-- The table and the name of the foreign key that an item adds. -/
def Item.foreignKeyAdded? : Item → Option (TableName × String)
  | addForeignKey table name _ => some (table, name)
  | _ => none

/-- The table and the name of the foreign key that an item validates. -/
def Item.foreignKeyValidated? : Item → Option (TableName × String)
  | validate table name => some (table, name)
  | _ => none

/-- The beginning of the statement that adds a foreign key to a table, with the names of both. -/
def AddsForeignKey (k : TableName × String) (text : String) : Prop :=
  ∃ rest, text = "ALTER TABLE " ++ identifier k.1.schema ++ "." ++ identifier k.1.name ++
    " ADD CONSTRAINT " ++ k.2 ++ " FOREIGN KEY (" ++ rest

/-- The statement that validates a foreign key of a table. -/
def ValidatesForeignKey (k : TableName × String) (text : String) : Prop :=
  text = "ALTER TABLE " ++ identifier k.1.schema ++ "." ++ identifier k.1.name ++
    " VALIDATE CONSTRAINT " ++ k.2 ++ ";"

theorem Item.addsForeignKey {item : Item} {k : TableName × String}
    (h : item.foreignKeyAdded? = some k) : AddsForeignKey k item.render := by
  cases item with
  | addForeignKey table name key =>
    cases h
    have hopen : " FOREIGN KEY (" = " FOREIGN KEY " ++ "(" := by decide
    unfold AddsForeignKey render
    rw [hopen]
    simp only [alter, TableName.render, qualifiedName, nameList, String.append_assoc]
    exact ⟨_, rfl⟩
  | _ => cases h

theorem Item.validatesForeignKey {item : Item} {k : TableName × String}
    (h : item.foreignKeyValidated? = some k) : ValidatesForeignKey k item.render := by
  cases item with
  | validate table name =>
    cases h
    unfold ValidatesForeignKey render
    simp only [alter, TableName.render, qualifiedName, String.append_assoc]
  | _ => cases h

def Script.foreignKeysAdded (s : Script) : List (TableName × String) :=
  s.filterMap Item.foreignKeyAdded?

def Script.foreignKeysValidated (s : Script) : List (TableName × String) :=
  s.filterMap Item.foreignKeyValidated?

/-- The foreign keys of a table under their names. -/
def Table.foreignKeyNames (table : TableName) (t : Table) : List (TableName × String) :=
  t.namedForeignKeys.map fun k => (table, k.2)

/-- The foreign keys of all tables under their names. -/
def Catalog.foreignKeyNames (c : Catalog) : List (TableName × String) :=
  c.tables.flatMap fun x => x.2.foreignKeyNames ⟨x.1.name, x.2.name⟩

variable {withTablespaces : Bool} {c : Catalog}

theorem Unsure.validations_validated (x : Schema × Table) :
    (validations x).filterMap Item.foreignKeyValidated? =
      x.2.foreignKeyNames ⟨x.1.name, x.2.name⟩ := by
  unfold validations Table.foreignKeyNames
  rw [List.filterMap_map, ← List.filterMap_eq_map]
  rfl

/-- What is picked out of the script, if indexes and identities are nothing to pick. -/
theorem After.IsScript.picked {pick : Item → Option (TableName × String)}
    {items keys indexes identities : Script}
    (h : IsScript withTablespaces c items keys indexes identities)
    (hhead : [Item.clientEncoding, .blank].filterMap pick = [])
    (hindex : ∀ x item, IsIndexOf withTablespaces x item → pick item = none)
    (hforeignKey : ∀ table name k, pick (.addForeignKey table name k) = some (table, name))
    (hidentity : ∀ x item, IsIdentityOf x item → pick item = none) :
    items.filterMap pick = keys.filterMap pick ++ c.foreignKeyNames := by
  have hindexes : indexes.filterMap pick = [] := by
    refine List.filterMap_eq_nil_iff.2 fun item hitem => ?_
    obtain ⟨x, -, hitem⟩ := h.indexes item hitem
    exact hindex x item hitem
  have hforeignKeys (x : Schema × Table) : (foreignKeyItems x).filterMap pick =
      x.2.foreignKeyNames ⟨x.1.name, x.2.name⟩ := by
    unfold foreignKeyItems Table.foreignKeyNames
    rw [List.filterMap_map, ← List.filterMap_eq_map]
    exact List.filterMap_congr fun k _ => hforeignKey _ _ _
  have hidentities : identities.filterMap pick = [] := by
    refine List.filterMap_eq_nil_iff.2 fun item hitem => ?_
    obtain ⟨x, -, hitem⟩ := h.identities item hitem
    exact hidentity x item hitem
  rw [h.layout]
  simp only [List.filterMap_append, hhead, hindexes, hidentities, List.append_nil,
    List.nil_append, List.filterMap_flatMap, hforeignKeys]
  rfl

theorem After.IsScript.foreignKeysAdded {items keys indexes identities : Script}
    (h : IsScript withTablespaces c items keys indexes identities) :
    items.foreignKeysAdded = c.foreignKeyNames := by
  have hkeys : keys.filterMap Item.foreignKeyAdded? = [] := by
    refine List.filterMap_eq_nil_iff.2 fun item hitem => ?_
    obtain ⟨x, -, hkey⟩ := h.keys item hitem
    cases hkey <;> rfl
  refine (h.picked rfl ?_ (fun _ _ _ => rfl) ?_).trans (by rw [hkeys]; rfl)
  · rintro x _ ⟨⟩
    rfl
  · rintro x _ ⟨⟩ <;> rfl

theorem Unsure.foreignKeysValidated {items rest : Script}
    (hitems : items = preamble ++ c.tables.flatMap validations ++ rest)
    (hrest : ∀ item ∈ rest, IsCopied c item) :
    items.foreignKeysValidated = c.foreignKeyNames := by
  have hcopied : rest.filterMap Item.foreignKeyValidated? = [] := by
    refine List.filterMap_eq_nil_iff.2 fun item hitem => ?_
    cases hrest item hitem <;> rfl
  unfold Script.foreignKeysValidated Catalog.foreignKeyNames
  rw [hitems]
  simp only [List.filterMap_append, hcopied, List.append_nil, List.filterMap_flatMap,
    validations_validated]
  rfl

/-- What a script holds of the foreign keys of the catalog, if it is one of those that do. Its text
says so in the same order. -/
structure Part.HoldsForeignKeys (c : Catalog) (p : Part) (script : Except Failure Script) :
    Prop where
  added : p = .after → ∃ items, script = .ok items ∧ items.foreignKeysAdded = c.foreignKeyNames ∧
    items.Tells Item.foreignKeyAdded? AddsForeignKey
  validated : p = .unsure →
    ∃ items, script = .ok items ∧ items.foreignKeysValidated = c.foreignKeyNames ∧
      items.Tells Item.foreignKeyValidated? ValidatesForeignKey

theorem Part.holdsForeignKeys_emit (withTablespaces : Bool) (c : Catalog) (p : Part)
    (e : Emission) : p.HoldsForeignKeys c ((p.emit withTablespaces c).run e).1 := by
  cases p with
  | before => exact ⟨nofun, nofun⟩
  | after =>
    obtain ⟨keys, indexes, identities, hscript⟩ := yields_emitAfter withTablespaces c e
    exact ⟨fun _ => ⟨_, rfl, hscript.foreignKeysAdded,
      Script.tells _ fun _ _ => Item.addsForeignKey⟩, nofun⟩
  | unsure =>
    obtain ⟨rest, hitems, hrest⟩ := yields_emitUnsure c e
    exact ⟨nofun, fun _ => ⟨_, rfl, Unsure.foreignKeysValidated hitems hrest,
      Script.tells _ fun _ _ => Item.validatesForeignKey⟩⟩

theorem emitParts_holdsForeignKeys (withTablespaces : Bool) (c : Catalog) (parts : List Part)
    (e : Emission) :
    List.Forall₂ (Part.HoldsForeignKeys c) parts
      ((emitParts withTablespaces c parts).run e).1 := by
  induction parts generalizing e with
  | nil => exact .nil
  | cons p rest ih =>
    exact .cons (p.holdsForeignKeys_emit withTablespaces c e)
      (ih ((p.emit withTablespaces c).run e).2)

/-- The foreign keys in a run of scripts, in any order and number: what is added is what is
validated, one entry for every foreign key. A foreign key keeps the name that it has. One without
gets a name that no other of the table has: its base name, or the base name with the smallest
positive number that is neither the name of another nor that of an unnamed one before it. -/
theorem foreignKeys_of_emitParts (withTablespaces : Bool) (c : Catalog) (parts : List Part)
    (e : Emission) :
    List.Forall₂ (Part.HoldsForeignKeys c) parts
        ((emitParts withTablespaces c parts).run e).1 ∧
      ∀ x ∈ c.tables, x.2.namedForeignKeys.map (·.1) = x.2.foreignKeys ∧
        ∀ before k name after, x.2.namedForeignKeys = before ++ (k, name) :: after →
          (∀ own, given k.name = some own → name = identifier own) ∧
          (given k.name = none → (∀ other ∈ before ++ after, other.2 ≠ name) ∧
            ForeignKeyName.IsClosest
              (ForeignKeyName.named x.2.foreignKeys ++ ForeignKeyName.unnamed before)
              (ForeignKeyName.base x.2.name k) name) := by
  refine ⟨emitParts_holdsForeignKeys withTablespaces c parts e, fun x _ => ⟨?_, ?_⟩⟩
  · exact ForeignKeyName.assign_keys _ _ _
  · intro before k name after hsplit
    refine ⟨fun own hown => ?_, fun hnone => ⟨?_, ?_⟩⟩
    · have hmem : (k, name) ∈ x.2.namedForeignKeys := by
        rw [hsplit]
        exact List.mem_append_right _ List.mem_cons_self
      exact ForeignKeyName.name_of_mem_assign hmem hown
    · exact ForeignKeyName.ne_of_assign hsplit hnone
    · exact ForeignKeyName.isClosest_of_assign hsplit hnone

end SchemaTransfer
