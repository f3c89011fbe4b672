import SchemaTransfer.Proofs.Load.Restart
import SchemaTransfer.Proofs.Target.Sequence
import SchemaTransfer.Proofs.Target.Tables

/-!
# Restarts in the scripts

A restart of a sequence is raised to the minimum when it is written. A restart of an identity is
written as it is, as the start of the sequence that stands for the identity.
-/
namespace SchemaTransfer
open Load Dump

section

variable {c : Catalog}

theorem Catalog.WellKept.mem_identities_iff (h : c.WellKept) {schema name : String}
    {d : String × Option Identity} : d ∈ c.identities schema name ↔
      ∃ x ∈ c.tables, x.1.name = schema ∧ x.2.name = name ∧
        ∃ k ∈ x.2.columns, (k.name, k.identity) = d := by
  constructor
  · intro hd
    unfold Catalog.identities at hd
    cases ht : c.table? schema name with
    | none =>
      rw [ht] at hd
      cases hd
    | some t =>
      rw [ht] at hd
      obtain ⟨s, hs, ht', hmem⟩ := Catalog.mem_tables_of_table? ht
      exact ⟨(s, t), hmem, (h.schemas.of_get? hs).name, (h.table ht).name, List.mem_map.1 hd⟩
  · rintro ⟨x, hx, rfl, rfl, hk⟩
    obtain ⟨hs, ht⟩ := h.mem_tables_iff.1 hx
    have htable : c.table? x.1.name x.2.name = some x.2 := Option.bind_eq_some_iff.2 ⟨x.1, hs, ht⟩
    rw [Catalog.identities, htable]
    exact List.mem_map.2 hk

variable {p : Catalog × Context} {ts : List Taken}

/-- Restarts do not change the start of a sequence. -/
theorem load_starts (h : load ({}, {}) ts = some p) (hrange : DeclaredInRange ts) :
    ∀ s ∈ p.1.schemas.values, ∀ q ∈ s.sequences.values, NotBelow q.start q.minValue := by
  intro s hs q hq
  obtain ⟨entry, hentry, rfl⟩ := List.mem_map.1 hs
  obtain ⟨entry', hentry', rfl⟩ := List.mem_map.1 hq
  have hschema : p.1.schema entry.1 = entry.2 := by
    rw [Catalog.schema, Keyed.get?_of_mem hentry, Option.getD_some]
  have hdeclared := load_sequence entry.1 entry'.1 h
  rw [hschema, Keyed.get?_of_mem hentry'] at hdeclared
  exact hrange.sequence (q := unrestarted entry'.2) hdeclared.symm

end

/-- Where a dump declares no start below its minimum, sequences start and restart at their minimum
or above it, whatever they are restarted with. The sequences of identities also start there, unless
the identity was restarted: then its last restart is written as the start. -/
theorem starts_inRange {withTablespaces : Bool} {verdicts : List Verdict}
    {lines : List (List Char)} {r : Conversion}
    (hr : (convert withTablespaces verdicts lines).outcome = .ok r)
    (hrange : DeclaredInRange (statements lines)) :
    (∀ schema name options owner,
      .createSequence schema name options owner ∈ r.scripts.before →
      NotBelow options.start options.minValue ∧
      ∀ other value, .restartSequence other name value ∈ r.scripts.before →
        normalize schema = normalize other → NotBelow (some value) options.minValue) ∧
    (∀ item ∈ r.scripts.after, item.isSequence = true → ∃ schema name options table column,
      item = .createSequence schema name options (some (table, column)) ∧
      (NotBelow options.start options.minValue ∨
        ∃ value, lastRestart table.schema table.name column (statements lines) = some value ∧
          options.start = some value)) ∧
    ∀ (table : TableName) (column : String) (value : Int),
      lastRestart table.schema table.name column (statements lines) = some value →
      ∃ schema name options, .createSequence schema name options (some (table, column)) ∈
        r.scripts.after ∧ options.start = some value := by
  have hconverts := converts_of_ok hr
  have hkept := load_wellKept Catalog.wellKept_empty hconverts.loads
  have hrestarted (schema name : String) :=
    load_restarted schema name hconverts.loads hrange.identity
  obtain ⟨hbefore, f, hafter⟩ := emitScripts_eq_ok hconverts.emits
  refine ⟨fun schema name options owner hmem => ⟨?_, fun other value hrestart hschema => ?_⟩,
    fun item hitem hsequence => ?_, fun table column value hlast => ?_⟩
  · obtain ⟨s, hs, q, hq, rfl⟩ := (emitBefore_sequences hbefore).created _ _ _ _ hmem
    exact load_starts hconverts.loads hrange s hs q hq
  · obtain ⟨q, rfl, hvalue⟩ := emitBefore_restarted hbefore hmem hrestart hschema
    rw [← hvalue]
    exact q.notBelow_resolvedRestart
  · rw [← hafter] at hitem
    obtain ⟨x, hx, k, hk, i, hi, schema, name, rfl⟩ := mem_emitAfter_owned hitem hsequence
    refine ⟨schema, name, After.options i, ⟨x.1.name, x.2.name⟩, k.name, rfl, ?_⟩
    have hmem : (k.name, k.identity) ∈ r.session.catalog.identities x.1.name x.2.name :=
      hkept.mem_identities_iff.2 ⟨x, hx, rfl, rfl, k, hk, rfl⟩
    exact (hrestarted x.1.name x.2.name).starts.of_mem hmem hi
  · obtain ⟨i, hmem, hstart⟩ := (hrestarted table.schema table.name).written column value hlast
    obtain ⟨x, hx, hschema, hname, k, hk, hd⟩ := hkept.mem_identities_iff.1 hmem
    obtain ⟨hcolumn, hi⟩ := Prod.mk.inj hd
    obtain ⟨schema, name, hcreated⟩ := exists_mem_emitAfter withTablespaces f hx hk hi
    rw [hafter, hschema, hname, hcolumn] at hcreated
    exact ⟨schema, name, After.options i, hcreated, hstart⟩

/-- A sequence that is restarted below its minimum, and an identity that is restarted above its
own. -/
def restarts : List (List Char) :=
  ["CREATE SEQUENCE \"S\".\"Q\" AS INTEGER", "  MINVALUE 5 MAXVALUE 9",
    "  START WITH 6 INCREMENT BY 1;", "ALTER SEQUENCE \"S\".\"Q\" RESTART WITH 3;",
    "CREATE TABLE \"S\".\"T\"  (",
    "  \"A\" INTEGER NOT NULL GENERATED BY DEFAULT AS IDENTITY (", "    START WITH +1",
    "    MINVALUE +1", "    NO ORDER ) );",
    "ALTER TABLE \"S\".\"T\" ALTER COLUMN \"A\" RESTART WITH 7;"].map String.toList

theorem starts_inRange_restarts :
    ∃ r, (convert false [] restarts).outcome = .ok r ∧ DeclaredInRange (statements restarts) ∧
      (∃ options, .createSequence "S" "q" options none ∈ r.scripts.before ∧
        .restartSequence "S" "q" 5 ∈ r.scripts.before ∧
        NotBelow options.start options.minValue ∧ NotBelow (some 5) options.minValue) ∧
      ∃ schema name options,
        .createSequence schema name options (some (⟨"S", "T"⟩, "A")) ∈ r.scripts.after ∧
          options.start = some 7 := by
  have hrun : ((convert false [] restarts).outcome.toOption.map fun r =>
      r.scripts.before.filter (·.isSequence)) = some
        [.createSequence "S" "q"
            { increment := some 1, minValue := some 5, maxValue := some 9, start := some 6 } none,
          .restartSequence "S" "q" 5] := by
    decide +kernel
  obtain ⟨r, hr, hrun⟩ := exists_ok_of_toOption_map hrun
  have hrange : DeclaredInRange (statements restarts) := by decide +kernel
  obtain ⟨hbefore, -, hlast⟩ := starts_inRange hr hrange
  have hcreate := List.mem_of_mem_filter (hrun.symm ▸ List.mem_cons_self :
    Item.createSequence "S" "q" _ none ∈ r.scripts.before.filter (·.isSequence))
  have hrestart := List.mem_of_mem_filter (hrun.symm ▸ List.mem_cons_of_mem _ List.mem_cons_self :
    Item.restartSequence "S" "q" 5 ∈ r.scripts.before.filter (·.isSequence))
  obtain ⟨hstart, hvalue⟩ := hbefore _ _ _ _ hcreate
  exact ⟨r, hr, hrange, ⟨_, hcreate, hrestart, hstart, hvalue "S" 5 hrestart rfl⟩,
    hlast ⟨"S", "T"⟩ "A" 7 (by decide +kernel)⟩

/-- The restart of an identity is not raised to its minimum. -/
theorem identity_starts_below : ¬∀ (withTablespaces : Bool) (verdicts : List Verdict)
    (lines : List (List Char)) (r : Conversion),
    (convert withTablespaces verdicts lines).outcome = .ok r →
    DeclaredInRange (statements lines) →
    ∀ schema name options owner, .createSequence schema name options owner ∈ r.scripts.after →
      NotBelow options.start options.minValue := by
  intro h
  let low : List (List Char) :=
    ["CREATE TABLE \"S\".\"T\"  (",
      "  \"A\" INTEGER NOT NULL GENERATED BY DEFAULT AS IDENTITY (", "    START WITH +1",
      "    MINVALUE +1", "    NO ORDER ) );",
      "ALTER TABLE \"S\".\"T\" ALTER COLUMN \"A\" RESTART WITH 0;"].map String.toList
  have hrun : ((convert false [] low).outcome.toOption.map fun r =>
      r.scripts.after.filter (·.isSequence)) = some
        [.createSequence "S" "t_a_seq" { minValue := some 1, start := some 0 }
          (some (⟨"S", "T"⟩, "A"))] := by
    decide +kernel
  obtain ⟨r, hr, hrun⟩ := exists_ok_of_toOption_map hrun
  have hcreate := List.mem_of_mem_filter (hrun.symm ▸ List.mem_cons_self :
    Item.createSequence "S" "t_a_seq" _ _ ∈ r.scripts.after.filter (·.isSequence))
  exact absurd (h false [] low r hr (by decide +kernel) _ _ _ _ hcreate) (by decide)

end SchemaTransfer
