import SchemaTransfer.Proofs.Except
import SchemaTransfer.Proofs.Names.Normal
import SchemaTransfer.Proofs.Target.ForeignKey

/-!
# Names of constraints

The constraints of a table get their names in three ways: those of keys are given out for the
schema, checks and named foreign keys keep the names that they have, and a foreign key without a
name goes around those of the other foreign keys. Each way leads to different names, but none of
them looks at what the others lead to.
-/
namespace SchemaTransfer
open Emit

/-- The table and the name, as it is written, of the constraint that an item adds. -/
def Item.constraintAdded? : Item → Option (TableName × String)
  | addPrimaryKey table name _ _ => name.map fun name => (table, identifier name)
  | addUnique table name _ _ => name.map fun name => (table, identifier name)
  | addForeignKey table name _ => some (table, name)
  | addCheck table name _ => name.map fun name => (table, identifier name)
  | _ => none

def Script.constraintsAdded (s : Script) : List (TableName × String) :=
  s.filterMap Item.constraintAdded?

namespace Table

/-- The names that the dump gives to keys. -/
def keyNames (t : Table) : List String :=
  (t.primaryKey.toList ++ t.uniqueKeys).filterMap fun k => given k.name

/-- The names of the check constraints, as they are written. -/
def checkNames (t : Table) : List String :=
  t.checks.filterMap fun k => (given k.name).map identifier

/-- The names that the dump gives to constraints, as they are written if they are kept. -/
def givenNames (t : Table) : List String :=
  t.keyNames.map identifier ++ ForeignKeyName.named t.foreignKeys ++ t.checkNames

end Table

/-- The name under which a table is known. -/
def tableName (x : Schema × Table) : TableName := ⟨x.1.name, x.2.name⟩

/-- The names of keys, as they are written. -/
def writtenNames (answers : List Answer) : List String := answers.map fun a => identifier a.name

/-- What the named keys of a table are called in the end. -/
structure KeysNamed (t : Table) (answers : List Answer) : Prop where
  desired : answers.map (·.desired) = t.keyNames
  close : ∀ a ∈ answers, a.IsClose
  distinct : answers.Pairwise fun a b => a.name ≠ b.name

theorem map_desired_keyRequests (s : Schema) (kind : String) (keys : List Key) :
    (keys.flatMap (Part.keyRequests s kind)).map (·.desired) =
      keys.filterMap fun k => given k.name := by
  induction keys with
  | nil => rfl
  | cons k keys ih =>
    rw [List.flatMap_cons, List.map_append, ih, List.filterMap_cons, Part.keyRequests]
    cases given k.name <;> rfl

theorem mem_tableKeyRequests {x : Schema × Table} {r : Request}
    (h : r ∈ Part.tableKeyRequests x) :
    r.schema = x.1.name ∧ IsSuffix ("_" ++ lowerCase r.kind) := by
  have hkey {kind : String} {keys : List Key}
      (hr : r ∈ keys.flatMap (Part.keyRequests x.1 kind)) :
      r.schema = x.1.name ∧ r.kind = kind := by
    obtain ⟨k, -, hr⟩ := List.mem_flatMap.1 hr
    obtain ⟨name, -, rfl⟩ := Option.map_eq_some_iff.1 (Option.mem_toList.1 hr)
    exact ⟨rfl, rfl⟩
  have hprimary : "_" ++ lowerCase "pk" = "_pk" := by decide +kernel
  have hunique : "_" ++ lowerCase "unique" = "_unique" := by decide +kernel
  rcases List.mem_append.1 h with h | h
  · obtain ⟨hschema, hkind⟩ := hkey h
    rw [hkind, hprimary]
    exact ⟨hschema, isSuffix_primaryKey⟩
  · obtain ⟨hschema, hkind⟩ := hkey h
    rw [hkind, hunique]
    exact ⟨hschema, isSuffix_unique⟩

theorem map_desired_tableKeyRequests (x : Schema × Table) :
    (Part.tableKeyRequests x).map (·.desired) = x.2.keyNames := by
  rw [Part.tableKeyRequests, List.map_append, map_desired_keyRequests, map_desired_keyRequests,
    ← List.filterMap_append]
  rfl

theorem keysNamed_of_requests {x : Schema × Table} {answers : List Answer}
    (hrequests : answers.map (·.toRequest) = Part.tableKeyRequests x)
    (hclose : ∀ a ∈ answers, a.IsClose)
    (hpairwise : answers.Pairwise fun a b => a.place = b.place → a.name ≠ b.name) :
    KeysNamed x.2 answers := by
  have hplace : ∀ a ∈ answers, a.place = normalize x.1.name := by
    intro a ha
    have hmem : a.toRequest ∈ Part.tableKeyRequests x := by
      rw [← hrequests]
      exact List.mem_map_of_mem ha
    rw [Answer.place, (mem_tableKeyRequests hmem).1]
  refine ⟨?_, hclose, hpairwise.imp_of_mem ?_⟩
  · rw [← map_desired_tableKeyRequests, ← hrequests, List.map_map]
    rfl
  · intro a b ha hb hname
    exact hname ((hplace a ha).trans (hplace b hb).symm)

theorem keysNamed_serveAll (n : Names) (x : Schema × Table) :
    KeysNamed x.2 (n.serveAll (Part.tableKeyRequests x)).1 := by
  refine keysNamed_of_requests (n.serveAll_requests _) ?_ (n.serveAll_pairwise _)
  exact Names.forall_mem_serveAll fun m r hr => m.serve_isClose (mem_tableKeyRequests hr).2

/-- Keys whose own names are written differently end up with different names. -/
theorem KeysNamed.nodup {t : Table} {answers : List Answer} (h : KeysNamed t answers)
    (hgiven : (t.keyNames.map identifier).Nodup) :
    (writtenNames answers).Nodup := by
  rw [← h.desired, List.Nodup, List.pairwise_map, List.pairwise_map] at hgiven
  rw [writtenNames, List.Nodup, List.pairwise_map]
  refine (h.distinct.and hgiven).imp_of_mem ?_
  rintro a b ha hb ⟨hname, hwritten⟩
  exact Answer.identifier_ne (h.close a ha) (h.close b hb) hname hwritten

/-- The constraints that are added for keys, by the names that these get. -/
def keyConstraints (x : Schema × Table) (answers : List Answer) : List (TableName × String) :=
  (writtenNames answers).map (tableName x, ·)

variable {withTablespaces : Bool}

theorem After.IsKeyOf.constraintAdded? {x : Schema × Table} {item : Item}
    (h : IsKeyOf withTablespaces x item) :
    item.constraintAdded? = item.introduced?.map fun p => (tableName x, identifier p.2) := by
  cases h with
  | addPrimaryKey name columns => cases name <;> rfl
  | addUnique name columns => cases name <;> rfl

theorem After.yields_keys_named (x : Schema × Table) :
    Yields (fun items => ∃ answers, items.constraintsAdded = keyConstraints x answers ∧
      KeysNamed x.2 answers) (keys withTablespaces x) := by
  intro e
  have hitems : ∀ item ∈ ((keys withTablespaces x).run e).1, IsKeyOf withTablespaces x item :=
    every_isKeyOf x e
  obtain ⟨-, hintroduced⟩ := gives_keys withTablespaces x e
  refine ⟨_, ?_, keysNamed_serveAll e.names x⟩
  have hnames : ((keys withTablespaces x).run e).1.constraintsAdded =
      (((keys withTablespaces x).run e).1.introduced).map
        fun p => (tableName x, identifier p.2) := by
    unfold Script.constraintsAdded Script.introduced
    rw [List.map_filterMap]
    exact List.filterMap_congr fun item hitem => (hitems item hitem).constraintAdded?
  rw [hnames, hintroduced, List.nil_append, List.map_map, keyConstraints, writtenNames,
    List.map_map]
  rfl

/-- The constraints that are added for checks with a name. -/
def checkConstraints (x : Schema × Table) : List (TableName × String) :=
  x.2.checkNames.map (tableName x, ·)

/-- The answers for the tables of a catalog, from what is known for each of them. -/
theorem exists_answers {l : List (Schema × Table)} {groups : List Script}
    (h : List.Forall₂ (fun x items => ∃ answers,
      items.constraintsAdded = keyConstraints x answers ∧ KeysNamed x.2 answers) l groups) :
    ∃ answers, Script.constraintsAdded groups.flatten =
        (List.zipWith keyConstraints l answers).flatten ∧
      List.Forall₂ (fun x => KeysNamed x.2) l answers := by
  induction h with
  | nil => exact ⟨[], rfl, .nil⟩
  | cons hgroup _ ih =>
    obtain ⟨first, hitems, hfirst⟩ := hgroup
    obtain ⟨rest, hmore, hrest⟩ := ih
    refine ⟨first :: rest, ?_, .cons hfirst hrest⟩
    rw [List.zipWith_cons_cons, List.flatten_cons, List.flatten_cons, ← hitems, ← hmore]
    exact List.filterMap_append

theorem After.IsScript.constraintsAdded {c : Catalog} {items keys indexes identities : Script}
    (h : IsScript withTablespaces c items keys indexes identities) :
    items.constraintsAdded = keys.constraintsAdded ++ c.foreignKeyNames := by
  refine h.picked rfl ?_ (fun _ _ _ => rfl) ?_
  · rintro x _ ⟨⟩
    rfl
  · rintro x _ ⟨⟩ <;> rfl

theorem yields_emitAfter_constraints (withTablespaces : Bool) (c : Catalog) :
    Yields (fun items => ∃ answers,
      items.constraintsAdded =
          (List.zipWith keyConstraints c.tables answers).flatten ++ c.foreignKeyNames ∧
        List.Forall₂ (fun x => KeysNamed x.2) c.tables answers)
      (emitAfter withTablespaces c) := by
  intro e
  obtain ⟨_, indexes, identities, hscript, ⟨groups, hgroups, rfl⟩, -⟩ :=
    yields_emitAfter_parts (yields_each fun x _ => After.yields_keys_named x)
      (After.every_table After.every_isIdentityOf) e
  obtain ⟨answers, hkeys, hanswers⟩ := exists_answers hgroups
  refine ⟨answers, ?_, hanswers⟩
  rw [hscript.constraintsAdded, hkeys]

theorem Unsure.picksChecks_constraintAdded? (c : Catalog) :
    PicksChecks c Item.constraintAdded? where
  preamble := by decide
  validate _ _ := rfl
  unparsable _ := rfl
  searchPath _ := rfl
  createView _ _ _ := rfl
  behind := by rintro _ ⟨⟩ <;> rfl

theorem yields_emitUnsure_constraints (c : Catalog) :
    Yields (·.constraintsAdded = c.tables.flatMap checkConstraints) (emitUnsure c) := by
  intro e
  rw [Script.constraintsAdded, (Unsure.picksChecks_constraintAdded? c).yields_emitUnsure e]
  congr 1
  funext x
  rw [checkConstraints, Table.checkNames, List.map_filterMap]
  refine List.filterMap_congr fun k _ => ?_
  rw [Option.map_map]
  rfl

/-- The names of the foreign keys of a table in their order, as they are written. -/
def Table.foreignKeyLabels (t : Table) : List String := t.namedForeignKeys.map (·.2)

/-- No name that is not given is met among the constraints of another kind: neither that of a
foreign key without a name of its own, nor one that a key got in place of its own. -/
structure NewNamesApart (t : Table) (answers : List Answer) : Prop where
  unnamed : ∀ k ∈ t.namedForeignKeys, given k.1.name = none →
    k.2 ∉ writtenNames answers ++ t.checkNames
  renamed : ∀ a ∈ answers, identifier a.name ≠ identifier a.desired →
    identifier a.name ∉ t.foreignKeyLabels ++ t.checkNames

/-- What becomes of the constraints of a table whose given names are different as they are
written. -/
structure ConstraintsNamed (t : Table) (answers : List Answer) : Prop where
  keys : (writtenNames answers).Nodup
  foreignKeys : t.foreignKeyLabels.Nodup
  checks : t.checkNames.Nodup
  distinct_iff : (writtenNames answers ++ t.foreignKeyLabels ++ t.checkNames).Nodup ↔
    NewNamesApart t answers

theorem KeysNamed.mem_given_or {t : Table} {answers : List Answer} (h : KeysNamed t answers)
    {x : String} (hx : x ∈ writtenNames answers) :
    x ∈ t.keyNames.map identifier ∨
      ∃ a ∈ answers, identifier a.name ≠ identifier a.desired ∧ identifier a.name = x := by
  obtain ⟨a, ha, rfl⟩ := List.mem_map.1 hx
  by_cases hkept : identifier a.name = identifier a.desired
  · refine .inl ?_
    rw [hkept, ← h.desired]
    exact List.mem_map_of_mem (List.mem_map_of_mem ha)
  · exact .inr ⟨a, ha, hkept, rfl⟩

theorem Table.mem_named_or {t : Table} {x : String} (hx : x ∈ t.foreignKeyLabels) :
    x ∈ ForeignKeyName.named t.foreignKeys ∨
      ∃ k ∈ t.namedForeignKeys, given k.1.name = none ∧ k.2 = x := by
  obtain ⟨k, hk, rfl⟩ := List.mem_map.1 hx
  cases hnamed : given k.1.name with
  | some own => exact .inl (ForeignKeyName.mem_named_of_mem_assign hk hnamed)
  | none => exact .inr ⟨k, hk, hnamed, rfl⟩

theorem newNamesApart_of_nodup {t : Table} {answers : List Answer}
    (h : (writtenNames answers ++ t.foreignKeyLabels ++ t.checkNames).Nodup) :
    NewNamesApart t answers := by
  obtain ⟨hfirst, -, hcheck⟩ := List.nodup_append.1 h
  obtain ⟨-, -, hown⟩ := List.nodup_append.1 hfirst
  refine ⟨fun k hk _ hmem => ?_, fun a ha _ hmem => ?_⟩
  · have hlabel : k.2 ∈ t.foreignKeyLabels := List.mem_map.2 ⟨k, hk, rfl⟩
    rcases List.mem_append.1 hmem with hmem | hmem
    · exact hown _ hmem _ hlabel rfl
    · exact hcheck _ (List.mem_append_right _ hlabel) _ hmem rfl
  · have hkey : identifier a.name ∈ writtenNames answers := List.mem_map.2 ⟨a, ha, rfl⟩
    rcases List.mem_append.1 hmem with hmem | hmem
    · exact hown _ hkey _ hmem rfl
    · exact hcheck _ (List.mem_append_left _ hkey) _ hmem rfl

/-- Of two names that are both given, the hypothesis on the table says that they are different. -/
theorem NewNamesApart.not_mem_of_key {t : Table} {answers : List Answer}
    (h : NewNamesApart t answers) (hkeys : KeysNamed t answers) (hgiven : t.givenNames.Nodup)
    {x : String} (hx : x ∈ writtenNames answers) : x ∉ t.foreignKeyLabels ∧ x ∉ t.checkNames := by
  obtain ⟨hfirst, -, hcheck⟩ := List.nodup_append.1 hgiven
  obtain ⟨-, -, hown⟩ := List.nodup_append.1 hfirst
  rcases hkeys.mem_given_or hx with hkept | ⟨a, ha, hnew, rfl⟩
  · refine ⟨fun hlabel => ?_, fun hmem => hcheck _ (List.mem_append_left _ hkept) _ hmem rfl⟩
    rcases Table.mem_named_or hlabel with hnamed | ⟨k, hk, hnone, rfl⟩
    · exact hown _ hkept _ hnamed rfl
    · exact h.unnamed k hk hnone (List.mem_append_left _ hx)
  · exact not_or.1 (mt List.mem_append.2 (h.renamed a ha hnew))

theorem NewNamesApart.not_mem_checkNames {t : Table} {answers : List Answer}
    (h : NewNamesApart t answers) (hgiven : t.givenNames.Nodup) {x : String}
    (hx : x ∈ t.foreignKeyLabels) : x ∉ t.checkNames := by
  obtain ⟨-, -, hcheck⟩ := List.nodup_append.1 hgiven
  intro hmem
  rcases Table.mem_named_or hx with hnamed | ⟨k, hk, hnone, rfl⟩
  · exact hcheck _ (List.mem_append_right _ hnamed) _ hmem rfl
  · exact h.unnamed k hk hnone (List.mem_append_right _ hmem)

theorem KeysNamed.constraintsNamed {t : Table} {answers : List Answer} (h : KeysNamed t answers)
    (hgiven : t.givenNames.Nodup) : ConstraintsNamed t answers := by
  obtain ⟨hfirst, hchecks, -⟩ := List.nodup_append.1 hgiven
  obtain ⟨hkeys, hnamed, -⟩ := List.nodup_append.1 hfirst
  have hkeys : (writtenNames answers).Nodup := h.nodup hkeys
  have hforeignKeys : t.foreignKeyLabels.Nodup :=
    ForeignKeyName.nodup_assign hnamed fun _ hown => hown
  refine ⟨hkeys, hforeignKeys, hchecks, newNamesApart_of_nodup, fun hapart => ?_⟩
  refine List.nodup_append.2
    ⟨List.nodup_append.2 ⟨hkeys, hforeignKeys, ?_⟩, hchecks, ?_⟩
  · rintro x hx _ hlabel rfl
    exact (hapart.not_mem_of_key h hgiven hx).1 hlabel
  · rintro x hx _ hmem rfl
    rcases List.mem_append.1 hx with hx | hx
    · exact (hapart.not_mem_of_key h hgiven hx).2 hmem
    · exact hapart.not_mem_checkNames hgiven hx hmem

/-- The constraints of the last two scripts, whatever was emitted before: the second one adds the
keys with a name, under names that are given out, and all foreign keys; the third one validates
these and adds the checks with a name. In a table whose given names are different as they are
written the names of each kind are different, and so are all of them unless a name that is not
given meets one of another kind. -/
theorem constraintNames_of_emission (withTablespaces : Bool) (c : Catalog) (e f : Emission) :
    ∃ answers,
      ((emitAfter withTablespaces c).run e).1.constraintsAdded =
          (List.zipWith keyConstraints c.tables answers).flatten ++ c.foreignKeyNames ∧
      ((emitUnsure c).run f).1.foreignKeysValidated = c.foreignKeyNames ∧
      ((emitUnsure c).run f).1.constraintsAdded = c.tables.flatMap checkConstraints ∧
      List.Forall₂ (fun x answers => KeysNamed x.2 answers ∧
        (x.2.givenNames.Nodup → ConstraintsNamed x.2 answers)) c.tables answers := by
  obtain ⟨answers, hadded, hanswers⟩ := yields_emitAfter_constraints withTablespaces c e
  obtain ⟨rest, hitems, hrest⟩ := yields_emitUnsure c f
  refine ⟨answers, hadded, Unsure.foreignKeysValidated hitems hrest,
    yields_emitUnsure_constraints c f, hanswers.imp fun x answers h => ?_⟩
  exact ⟨h, h.constraintsNamed⟩

/-- A table with constraints of each kind. One foreign key has no name, and the unique constraint
has that of the table. -/
def constrainedTable : Table :=
  { name := "T", primaryKey := some { columns := ["A"], name := some "P" }
    constraints := [.unique { columns := ["B"], name := some "T" },
      .foreign ⟨["B"], "S", "T", ["A"], some "F", none, none, true⟩,
      .foreign ⟨["B"], "S", "T", ["A"], none, none, none, true⟩,
      .check { condition := "B > 0", name := some "C" }] }

def constrainedSchema : Schema := { name := "S", tables := Keyed.empty.insert "T" constrainedTable }

def constrainedCatalog : Catalog := { schemas := Keyed.empty.insert "S" constrainedSchema }

theorem constraintNames_of_constrainedTable :
    ∃ answers, writtenNames answers = ["p", "t_unique"] ∧
      constrainedTable.foreignKeyLabels = ["f", "t_b_fkey"] ∧
      constrainedTable.givenNames.Nodup ∧ ConstraintsNamed constrainedTable answers := by
  have htables : constrainedCatalog.tables = [(constrainedSchema, constrainedTable)] := by
    decide +kernel
  have hrun : ((emitAfter true constrainedCatalog).run
      (.start constrainedCatalog [])).1.constraintsAdded =
      [(⟨"S", "T"⟩, "p"), (⟨"S", "T"⟩, "t_unique")] ++ constrainedCatalog.foreignKeyNames := by
    decide +kernel
  have hgiven : constrainedTable.givenNames.Nodup := by decide +kernel
  obtain ⟨_, hadded, -, -, hanswers⟩ := constraintNames_of_emission true constrainedCatalog
    (.start constrainedCatalog []) (.start constrainedCatalog [])
  rw [htables] at hadded hanswers
  obtain ⟨answers, _, ⟨-, hnamed⟩, hrest, rfl⟩ := List.forall₂_cons_left_iff.1 hanswers
  obtain rfl := List.forall₂_nil_left_iff.1 hrest
  have hkeys : keyConstraints (constrainedSchema, constrainedTable) answers =
      [(⟨"S", "T"⟩, "p"), (⟨"S", "T"⟩, "t_unique")] := by
    rw [hrun, List.zipWith_cons_cons, List.zipWith_nil_left, List.flatten_singleton] at hadded
    exact (List.append_cancel_right hadded).symm
  refine ⟨answers, ?_, by decide +kernel, hgiven, hnamed hgiven⟩
  have hnames := congrArg (List.map Prod.snd) hkeys
  rwa [keyConstraints, List.map_map, Function.comp_def, List.map_id'] at hnames

/-- A check constraint has the name that the foreign key without one gets. -/
theorem constraintNames_clash : ¬∀ (withTablespaces : Bool) (verdicts : List Verdict)
    (lines : List (List Char)) (r : Conversion),
    (convert withTablespaces verdicts lines).outcome = .ok r →
    ∀ x ∈ r.session.catalog.tables, x.2.givenNames.Nodup →
      ((Script.constraintsAdded (r.scripts.after ++ r.scripts.unsure)).filter
        fun added => added.1 = tableName x).Nodup := by
  intro h
  let clash : List (List Char) :=
    ["CREATE TABLE \"S\".\"T\"  (", "  \"A\" INTEGER );",
      "ALTER TABLE \"S\".\"T\"", "  ADD CONSTRAINT \"T_A_FKEY\" CHECK", "    (A > 0)",
      "  ENFORCED;",
      "ALTER TABLE \"S\".\"T\"", "  ADD FOREIGN KEY", "    (\"A\")", "  REFERENCES \"S\".\"T\"",
      "    (\"A\");"].map String.toList
  have hrun : ((convert false [] clash).outcome.toOption.map fun r =>
      (r.session.catalog.tables.map fun x => (tableName x, x.2.givenNames),
        Script.constraintsAdded (r.scripts.after ++ r.scripts.unsure))) =
      some ([(⟨"S", "T"⟩, ["t_a_fkey"])],
        [(⟨"S", "T"⟩, "t_a_fkey"), (⟨"S", "T"⟩, "t_a_fkey")]) := by
    decide +kernel
  obtain ⟨r, hr, hrun⟩ := exists_ok_of_toOption_map hrun
  obtain ⟨htables, hadded⟩ := Prod.mk.inj hrun
  obtain ⟨x, hx, hname⟩ := List.mem_map.1 (htables.symm ▸ List.mem_singleton_self _)
  obtain ⟨htable, hgiven⟩ := Prod.mk.inj hname
  have hdistinct := h false [] clash r hr x hx (by rw [hgiven]; exact List.nodup_singleton _)
  rw [hadded, htable] at hdistinct
  exact absurd hdistinct (by decide)

end SchemaTransfer
