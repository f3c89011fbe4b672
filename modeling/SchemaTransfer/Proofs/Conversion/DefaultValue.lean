import SchemaTransfer.Proofs.Conversion.Failure
import SchemaTransfer.Proofs.Load.ColumnType
import SchemaTransfer.Proofs.Target.DefaultValue
import SchemaTransfer.Proofs.Target.Tables

/-!
# Implicit default values in the script

A dump that can be loaded is converted unless a column is to have the implicit default value of a
type without one: a distinct type, or a type of the keywords `NUM`, `BOOLEAN` and `XML`. Otherwise
every such column is written with the value that goes with its keyword.
-/
namespace SchemaTransfer
open Load Dump ColumnLine DefaultValue

/-- A column that is to have the implicit default value of a type without one. -/
def Column.IsBare (k : Column) : Prop :=
  k.default = some .implicit ∧ (isDistinctType k.dumpType.toList = true ∨
    ∃ w ∈ bareKeywords, hasKeyword w k.dumpType.toList = true)

instance (k : Column) : Decidable k.IsBare := inferInstanceAs (Decidable (_ ∧ _))

theorem Column.implicit?_eq_none_iff {k : Column} (htype : isType k.dumpType.toList = true) :
    implicit? k.dumpType = none ↔ isDistinctType k.dumpType.toList = true ∨
      ∃ w ∈ bareKeywords, hasKeyword w k.dumpType.toList = true := by
  have h := DefaultValue.implicit?_eq_none_iff htype
  rwa [String.ofList_toList] at h

/-- A column has a default value that can be written, or it is bare. -/
theorem Column.defaultValue?_isSome_iff {k : Column} (htype : isType k.dumpType.toList = true) :
    k.defaultValue?.toOption.isSome = true ↔ ¬k.IsBare := by
  unfold Column.IsBare Column.defaultValue?
  rw [← Column.implicit?_eq_none_iff htype]
  cases hdefault : k.default with
  | none => simp [Except.toOption]
  | some d =>
    cases d with
    | text text => simp [Except.toOption]
    | implicit =>
      unfold DefaultValue.implicit
      cases implicit? k.dumpType <;> simp [Except.map, Except.toOption]

/-- A column stands in the script with the default value that it has. -/
theorem mem_columns {cs : List Column} {items : List ColumnItem} {k : Column}
    (h : Before.columns cs = .ok items) (hk : k ∈ cs) :
    ∃ item ∈ items, Before.column k = .ok item := by
  induction cs generalizing items with
  | nil => cases hk
  | cons c cs ih =>
    rw [Before.columns] at h
    obtain ⟨item, hitem, h⟩ := bind_eq_ok h
    obtain ⟨more, hmore, h⟩ := bind_eq_ok h
    cases h
    rcases List.mem_cons.1 hk with rfl | hk
    · exact ⟨item, List.mem_cons_self, hitem⟩
    · obtain ⟨other, hother, hcolumn⟩ := ih hmore hk
      exact ⟨other, List.mem_cons_of_mem _ hother, hcolumn⟩

theorem column_mem_emitBefore {withTablespaces : Bool} {c : Catalog} {e : Emission}
    {script : Script} (h : ((emitBefore withTablespaces c).run e).1 = .ok script)
    {x : Schema × Table} (hx : x ∈ c.tables) {k : Column} (hk : k ∈ x.2.columns) :
    ∃ columns tablespace item, .createTable ⟨x.1.name, x.2.name⟩ columns tablespace ∈ script ∧
      item ∈ columns ∧ Before.column k = .ok item := by
  obtain ⟨tables, e', htables, rfl⟩ := emitBefore_eq_ok h
  obtain ⟨items, hitems⟩ := Before.tables_ok_iff.1 ⟨tables, htables⟩ x hx
  obtain ⟨columns, hcolumns, hscript⟩ := map_eq_ok hitems
  obtain ⟨item, hitem, hcolumn⟩ :=
    mem_columns hcolumns ((List.mergeSort_perm _ _).mem_iff.2 hk)
  subst hscript
  have hmem := Before.mem_tables htables hx hitems List.mem_cons_self
  exact ⟨columns, _, item, List.mem_append_right _ hmem, hitem, hcolumn⟩

/-- What a conversion fails with. -/
def Conversion.Result.failure? (r : Conversion.Result) : Option Failure :=
  match r.outcome with
  | .ok _ => none
  | .error failure => some failure

theorem Conversion.Result.outcome_of_failure? {r : Conversion.Result} {failure : Failure}
    (h : r.failure? = some failure) : r.outcome = .error failure := by
  unfold failure? at h
  split at h
  · cases h
  · next houtcome => rw [houtcome, Option.some.inj h]

section

variable {withTablespaces : Bool} {verdicts : List Verdict} {lines : List (List Char)}
  {session : Session} {notices : List Notice}

theorem load_of_takeAll (h : ({} : Session).takeAll (statements lines) = (session, notices, none)) :
    load ({}, {}) (statements lines) = some (session.catalog, session.context) := by
  have hload := takeAll_load {} (statements lines)
  rw [h] at hload
  exact hload

theorem isType_of_takeAll
    (h : ({} : Session).takeAll (statements lines) = (session, notices, none)) :
    ∀ x ∈ session.catalog.tables, ∀ k ∈ x.2.columns, isType k.dumpType.toList = true := by
  intro x hx
  have hload := load_of_takeAll h
  obtain ⟨hs, ht⟩ := (load_wellKept Catalog.wellKept_empty hload).mem_tables_iff.1 hx
  exact load_typesKnown hload _ _ _ (Option.bind_eq_some_iff.2 ⟨x.1, hs, ht⟩)

theorem convert_error_of_takeAll
    (h : ({} : Session).takeAll (statements lines) = (session, notices, none)) {failure : Failure}
    (hfailure : (convert withTablespaces verdicts lines).outcome = .error failure) :
    ∃ x ∈ session.catalog.tables, ∃ k ∈ x.2.columns, k.IsBare ∧
      failure = .noImplicitDefault k.dumpType := by
  have htype := isType_of_takeAll h
  unfold convert at hfailure
  rw [h] at hfailure
  obtain ⟨x, hx, k, hk, hlacks⟩ := emitScripts_error (map_eq_error hfailure)
  have hbare := (Column.implicit?_eq_none_iff (htype x hx k hk)).1 hlacks.type
  exact ⟨x, hx, k, hk, ⟨hlacks.default, hbare⟩, hlacks.failure⟩

theorem column_mem_convert
    (h : ({} : Session).takeAll (statements lines) = (session, notices, none)) {r : Conversion}
    (hr : (convert withTablespaces verdicts lines).outcome = .ok r) {x : Schema × Table}
    (hx : x ∈ session.catalog.tables) {k : Column} (hk : k ∈ x.2.columns) :
    ∃ columns tablespace item,
      .createTable ⟨x.1.name, x.2.name⟩ columns tablespace ∈ r.scripts.before ∧
      item ∈ columns ∧ Before.column k = .ok item := by
  have hconverts := converts_of_ok hr
  have hsame := Option.some.inj ((load_of_takeAll h).symm.trans hconverts.loads)
  have hcatalog : session.catalog = r.session.catalog := congrArg (·.1) hsame
  rw [hcatalog] at hx
  exact column_mem_emitBefore (emitScripts_eq_ok hconverts.emits).1 hx hk

/-- Every type that a dump can be loaded with is a distinct type or a keyword with an argument and
options, and the keyword alone decides on the implicit default value. A loaded dump is converted
exactly if no column is bare; what it fails with is the type of a bare column. Where it is
converted, every column that is to have an implicit default value is written with that of its
keyword. -/
theorem convert_implicitDefaults
    (h : ({} : Session).takeAll (statements lines) = (session, notices, none))
    (withTablespaces : Bool) (verdicts : List Verdict) :
    (∀ x ∈ session.catalog.tables, ∀ k ∈ x.2.columns,
      isDistinctType k.dumpType.toList = true ∨
        ∃ w ∈ typeKeywords, hasKeyword w k.dumpType.toList = true ∧
          implicit? k.dumpType = ofKeyword? w) ∧
    ((∃ r, (convert withTablespaces verdicts lines).outcome = .ok r) ↔
      ∀ x ∈ session.catalog.tables, ∀ k ∈ x.2.columns, ¬k.IsBare) ∧
    (∀ failure, (convert withTablespaces verdicts lines).outcome = .error failure →
      ∃ x ∈ session.catalog.tables, ∃ k ∈ x.2.columns, k.IsBare ∧
        failure = .noImplicitDefault k.dumpType) ∧
    ∀ r, (convert withTablespaces verdicts lines).outcome = .ok r →
      ∀ x ∈ session.catalog.tables, ∀ k ∈ x.2.columns, k.default = some .implicit →
        ∀ w ∈ typeKeywords, hasKeyword w k.dumpType.toList = true →
          ∃ value columns tablespace, ofKeyword? w = some value ∧
            .createTable ⟨x.1.name, x.2.name⟩ columns tablespace ∈ r.scripts.before ∧
            { name := k.name, type := k.type, default := some value, notNull := k.notNull } ∈
              columns := by
  have htype := isType_of_takeAll h
  have hkeyword {k : Column} {w : String} (hw : w ∈ typeKeywords)
      (hk : hasKeyword w k.dumpType.toList = true) : implicit? k.dumpType = ofKeyword? w := by
    have himplicit := implicit?_of_hasKeyword hw hk
    rwa [String.ofList_toList] at himplicit
  constructor
  · intro x hx k hk
    rcases isType_iff.1 (htype x hx k hk) with hdistinct | ⟨w, hw, hwk⟩
    · exact .inl hdistinct
    · exact .inr ⟨w, hw, hwk, hkeyword hw hwk⟩
  refine ⟨⟨?_, ?_⟩, fun failure => convert_error_of_takeAll h, ?_⟩
  · rintro ⟨r, hr⟩ x hx k hk
    obtain ⟨columns, tablespace, item, -, -, hcolumn⟩ := column_mem_convert h hr hx hk
    obtain ⟨value, hvalue, -⟩ := map_eq_ok hcolumn
    rw [← Column.defaultValue?_isSome_iff (htype x hx k hk), hvalue]
    rfl
  · intro hnone
    cases hconvert : (convert withTablespaces verdicts lines).outcome with
    | ok r => exact ⟨r, rfl⟩
    | error failure =>
      obtain ⟨x, hx, k, hk, hbare, -⟩ := convert_error_of_takeAll h hconvert
      exact absurd hbare (hnone x hx k hk)
  · intro r hr x hx k hk hdefault w hw hwk
    obtain ⟨columns, tablespace, item, hmem, hitem, hcolumn⟩ := column_mem_convert h hr hx hk
    obtain ⟨value, hvalue, rfl⟩ := map_eq_ok hcolumn
    simp only [Column.defaultValue?, hdefault, DefaultValue.implicit, hkeyword hw hwk] at hvalue
    cases hof : ofKeyword? w with
    | none =>
      rw [hof] at hvalue
      cases hvalue
    | some text =>
      rw [hof] at hvalue
      cases hvalue
      exact ⟨text, columns, tablespace, rfl, hmem, hitem⟩

end

/-- Columns with implicit default values of four kinds. -/
def implicitDefaults : List (List Char) :=
  ["CREATE TABLE \"S\".\"T\"  (", "  \"A\" NUMERIC(5,2) NOT NULL WITH DEFAULT ,",
    "  \"B\" VARCHAR(3) FOR BIT DATA WITH DEFAULT ,", "  \"C\" TIMESTAMP(6) WITH DEFAULT ,",
    "  \"D\" LONG VARGRAPHIC WITH DEFAULT );"].map String.toList

theorem convert_implicitDefaults_fourKinds :
    ∃ r, (convert false [] implicitDefaults).outcome = .ok r ∧
      ∃ columns tablespace, .createTable ⟨"S", "T"⟩ columns tablespace ∈ r.scripts.before ∧
        ⟨"C", "TIMESTAMP(6)", some "current_timestamp", false⟩ ∈ columns := by
  let c : Column :=
    { name := "C", type := "TIMESTAMP(6)", dumpType := "TIMESTAMP(6)", position := 3,
      default := some .implicit }
  have hnone : (({} : Session).takeAll (statements implicitDefaults)).2.2 = none := by
    decide +kernel
  have hbare : ∀ x ∈ (({} : Session).takeAll (statements implicitDefaults)).1.catalog.tables,
      ∀ k ∈ x.2.columns, ¬k.IsBare := by decide +kernel
  have hcolumn : ∃ x ∈ (({} : Session).takeAll (statements implicitDefaults)).1.catalog.tables,
      x.1.name = "S" ∧ x.2.name = "T" ∧ c ∈ x.2.columns := by decide +kernel
  obtain ⟨⟨session, notices, failure⟩, hload⟩ :
      ∃ run, ({} : Session).takeAll (statements implicitDefaults) = run := ⟨_, rfl⟩
  rw [hload] at hnone hbare hcolumn
  obtain rfl : failure = none := hnone
  obtain ⟨x, hx, hschema, hname, hc⟩ := hcolumn
  obtain ⟨-, hconverts, -, hwritten⟩ := convert_implicitDefaults hload false []
  obtain ⟨r, hr⟩ := hconverts.2 hbare
  obtain ⟨value, columns, tablespace, hvalue, hmem, hitem⟩ :=
    hwritten r hr x hx c hc rfl "TIMESTAMP" (by decide) (by decide +kernel)
  cases hvalue
  rw [hschema, hname] at hmem
  exact ⟨r, hr, columns, tablespace, hmem, hitem⟩

/-- The keyword `NUM` is known to the types of a dump and has no implicit default value. -/
theorem num_without_default : ¬∀ (withTablespaces : Bool) (verdicts : List Verdict)
    (lines : List (List Char)) (type : String),
    (convert withTablespaces verdicts lines).outcome = .error (.noImplicitDefault type) →
      isDistinctType type.toList = true ∨
        ∃ w ∈ ["XML", "BOOLEAN"], hasKeyword w type.toList = true := by
  intro h
  have hfails : (convert false [] ["CREATE TABLE \"S\".\"T\"  (".toList,
      "  \"A\" NUM(5,2) WITH DEFAULT );".toList]).failure? =
        some (.noImplicitDefault "NUM(5,2)") := by
    decide +kernel
  have hknown := h _ _ _ _ (Conversion.Result.outcome_of_failure? hfails)
  revert hknown
  decide +kernel

end SchemaTransfer
