import SchemaTransfer.Proofs.Except
import SchemaTransfer.Proofs.Names.ForeignKey
import SchemaTransfer.Proofs.Target.Tables
import SchemaTransfer.Proofs.Target.Wording

/-!
# What the tally of an emission says

Each counter is the number of statements of its kind in the scripts, and that of the objects of its
kind in the catalog. Every view and every check constraint is checked once. As many checks as found
a problem are counted as failures, and as many remarks stand in the scripts, each before the
statement that it is about.
-/
namespace SchemaTransfer
open Emit

/-- A unique index with included columns, for which there are two statements. -/
def Index.isSplit (i : Index) : Bool := i.unique && !i.includeColumns.isEmpty

/-- The script with the statements that a counter counts. -/
def Counter.part : Counter → Part
  | .tablespaces | .roles | .schemas | .sequences | .domains | .tables => .before
  | .primaryKeys | .uniqueConstraints | .indexes | .foreignKeys | .identities => .after
  | .checkConstraints | .views | .functions | .triggers | .probeFailures => .unsure

/-- The objects of a kind, of which each needs a statement. -/
def Catalog.objects (withTablespaces : Bool) (c : Catalog) : Counter → ℕ
  | .tablespaces =>
    if withTablespaces then c.tablespaces.entries.countP fun e => !e.2.paths.isEmpty else 0
  | .roles => c.roles.entries.length
  | .schemas => c.schemas.values.length
  | .sequences => (c.schemas.values.map fun s => s.sequences.values.length).sum
  | .domains => (c.schemas.values.map fun s => s.domains.entries.length).sum
  | .tables => c.tables.length
  | .primaryKeys => c.tables.countP fun x => x.2.primaryKey.isSome
  | .uniqueConstraints => (c.tables.map fun x => x.2.uniqueKeys.length).sum
  | .indexes =>
    (c.tables.map fun x => x.2.indexes.values.length + x.2.indexes.values.countP Index.isSplit).sum
  | .foreignKeys => (c.tables.map fun x => x.2.foreignKeys.length).sum
  | .identities => (c.tables.map fun x => x.2.columns.countP fun k => k.identity.isSome).sum
  | .checkConstraints => (c.tables.map fun x => x.2.checks.length).sum
  | .views => c.views.length
  | .functions => (c.schemas.values.map fun s => s.routines.values.length).sum
  | .triggers => (c.schemas.values.map fun s => s.triggers.entries.length).sum
  | .probeFailures => 0

/-- The objects for which the statements stand in a certain script. -/
def Catalog.objectsIn (p : Part) (withTablespaces : Bool) (c : Catalog) (k : Counter) : ℕ :=
  if k.part = p then c.objects withTablespaces k else 0

variable {withTablespaces : Bool} {c : Catalog}

namespace Before

theorem books_tablespace (entry : String × Tablespace) :
    Books 0 (Pi.single .tablespaces (if !entry.2.paths.isEmpty then 1 else 0)) 0
      (tablespace entry) := by
  unfold tablespace
  cases entry.2.paths with
  | nil =>
    rw [show (if !([] : List String).isEmpty then 1 else 0) = 0 from rfl, Pi.single_zero]
    exact (quiet_notice _).books_bind fun _ => books_pure rfl rfl
  | cons path rest => exact books_statement (by decide) rfl (List.forall_mem_nil _)

theorem books_tablespaces (withTablespaces : Bool) (c : Catalog) :
    Books 0 (Pi.single .tablespaces (c.objects withTablespaces .tablespaces)) 0
      (tablespaces withTablespaces c) := by
  unfold tablespaces
  cases withTablespaces with
  | false =>
    rw [show c.objects false .tablespaces = 0 from rfl, Pi.single_zero]
    exact books_pure rfl rfl
  | true =>
    intro e
    exact (books_each_if (fun entry _ => books_tablespace entry) e).append
      (booked_uncounted _ (by simp [Item.counter?]))

theorem books_role (entry : String × Role) : Books 0 (Pi.single .roles 1) 0 (role entry) := by
  refine books_statement (by decide) rfl fun item hitem => ?_
  obtain ⟨text, -, rfl⟩ := Option.map_eq_some_iff.1 (Option.mem_toList.1 hitem)
  rfl

theorem books_schema (s : Schema) : Books 0 (Pi.single .schemas 1) 0 (schema s) :=
  books_statement (by decide) rfl (List.forall_mem_nil _)

theorem books_sequence (s : Schema) (q : Sequence) :
    Books 0 (Pi.single .sequences 1) 0 (sequence s q) := by
  refine (quiet_resolve _ _ _).books_bind fun name => (quiet_notices _).books_bind fun _ => ?_
  refine books_statement (by decide) rfl fun item hitem => ?_
  obtain ⟨value, -, rfl⟩ := Option.map_eq_some_iff.1 (Option.mem_toList.1 hitem)
  rfl

theorem books_domain (s : Schema) (entry : String × Domain) :
    Books 0 (Pi.single .domains 1) 0 (domain s entry) :=
  books_statement (by decide) rfl (List.forall_mem_nil _)

theorem comments_counted (name : TableName) (t : Table) :
    Script.counted (comments name t) = 0 := by
  refine Script.counted_eq_zero fun item h => ?_
  cases isComment_of_mem item h <;> rfl

theorem table_counted {s : Schema} {t : Table} {items : Script}
    (h : table withTablespaces s t = .ok items) : items.counted = Pi.single .tables 1 := by
  obtain ⟨columnItems, -, rfl⟩ := map_eq_ok h
  rw [List.cons_append, Script.counted_cons, Script.counted_append, comments_counted, zero_add,
    Script.counted_cons, Script.counted_nil]
  rfl

/-- The tables that were counted before one fails do not matter, for then there is no script. -/
theorem booked_tables {l : List (Schema × Table)} {e : Emission} {script : Script}
    (h : ((tables withTablespaces l).run e).1 = .ok script) :
    Booked 0 (Pi.single .tables l.length) 0 e script ((tables withTablespaces l).run e).2 := by
  induction l generalizing e script with
  | nil =>
    cases h
    rw [List.length_nil, Pi.single_zero]
    exact booked_of_counted e rfl rfl
  | cons x rest ih =>
    obtain ⟨s, t⟩ := x
    unfold tables at h ⊢
    cases htable : table withTablespaces s t with
    | error failure =>
      rw [htable] at h
      cases h
    | ok items =>
      rw [htable] at h
      obtain ⟨more, hmore, rfl⟩ := map_eq_ok h
      have hitems : Books 0 (Pi.single .tables 1) 0
          (count (Tally.bump .tables) >>= fun _ => pure items) :=
        books_counted (by decide) (table_counted htable)
      rw [List.length_cons, Nat.add_comm, Pi.single_add]
      exact (hitems e).append (ih hmore)

end Before

theorem booked_emitBefore {e : Emission} {script : Script}
    (h : ((emitBefore withTablespaces c).run e).1 = .ok script) :
    Booked 0 (c.objectsIn .before withTablespaces) 0 e script
      ((emitBefore withTablespaces c).run e).2 := by
  obtain ⟨tables, htables, rfl⟩ := map_eq_ok h
  have hstart : Booked 0 0 0 e [.clientEncoding, .blank] e :=
    booked_uncounted e (by simp [Item.counter?])
  have hblank (e : Emission) : Booked 0 0 0 e [.blank] e :=
    booked_uncounted e (by simp [Item.counter?])
  have hroles := books_each_one fun entry (_ : entry ∈ c.roles.entries) => Before.books_role entry
  have hschemas := books_each_one fun s (_ : s ∈ c.schemas.values) => Before.books_schema s
  have hsequences := books_each_unchecked fun s (_ : s ∈ c.schemas.values) =>
    books_each_one fun q (_ : q ∈ s.sequences.values) => Before.books_sequence s q
  have hdomains := books_each_unchecked fun s (_ : s ∈ c.schemas.values) =>
    books_each_one fun entry (_ : entry ∈ s.domains.entries) => Before.books_domain s entry
  have hall := ((((((((hstart.append (Before.books_tablespaces withTablespaces c e)).append
    (hroles _)).append (hblank _)).append (hschemas _)).append (hblank _)).append
    (hsequences _)).append (hdomains _)).append (hblank _)).append (Before.booked_tables htables)
  -- The kinds of each loop are put together, and no kind is counted in two of them.
  refine hall.of_eq (funext fun k => ?_) rfl
  cases k <;> simp [Catalog.objectsIn, Counter.part, Catalog.objects]

namespace After

variable {s : Schema} {t : Table}

theorem quiet_keyName (s : Schema) (k : Key) (kind : String) : Quiet (keyName s k kind) := by
  unfold keyName
  cases given k.name with
  | none => exact quiet_pure none
  | some name => exact (quiet_resolve _ _ _).bind fun chosen => quiet_pure (some chosen)

theorem books_primaryKey (k : Key) :
    Books 0 (Pi.single .primaryKeys 1) 0 (primaryKey withTablespaces s t k) :=
  (quiet_keyName s k "pk").books_bind fun _ =>
    books_statement (by decide) rfl (List.forall_mem_nil _)

theorem books_uniqueKey (k : Key) :
    Books 0 (Pi.single .uniqueConstraints 1) 0 (uniqueKey withTablespaces s t k) :=
  (quiet_keyName s k "unique").books_bind fun _ =>
    books_statement (by decide) rfl (List.forall_mem_nil _)

theorem books_keys (withTablespaces : Bool) (x : Schema × Table) :
    Books 0 (Pi.single Counter.primaryKeys x.2.primaryKey.toList.length +
      Pi.single Counter.uniqueConstraints x.2.uniqueKeys.length) 0 (keys withTablespaces x) := by
  intro e
  exact (books_each_one (fun k _ => books_primaryKey k) e).append
    (books_each_one (fun k _ => books_uniqueKey k) _)

theorem books_index (withTablespaces : Bool) (s : Schema) (t : Table) (i : Index) :
    Books 0 (Pi.single .indexes (1 + if i.isSplit then 1 else 0)) 0
      (index withTablespaces s t i) := by
  have hcounts (unique : Bool) (name : String) (table : TableName) (columns : List IndexColumn)
      (tablespace : Option String) :
      (Item.createIndex unique name table columns tablespace).counts = Pi.single .indexes 1 := rfl
  have hone (item : Item) (hitem : item.counts = Pi.single .indexes 1) :
      Books (0 + Pi.single Counter.indexes 1) (Pi.single Counter.indexes (1 + 0)) 0
        (pure [item]) := by
    rw [zero_add]
    exact books_pure (by rw [Script.counted_cons, hitem, Script.counted_nil, add_zero]) (by decide)
  unfold index Index.isSplit
  refine (quiet_resolve _ _ _).books_bind fun name => books_count .indexes ?_
  by_cases hnone : i.includeColumns.isEmpty
  · simp only [hnone, if_true, Bool.not_true, Bool.and_false, Bool.false_eq_true, if_false]
    exact hone _ (hcounts _ _ _ _ _)
  · by_cases hunique : i.unique
    · simp only [hnone, hunique, if_true, Bool.and_true, Bool.not_false, Bool.false_eq_true,
        if_false]
      refine (quiet_resolve _ _ _).books_bind fun covering => ?_
      refine (quiet_notice _).books_bind fun _ => books_count .indexes ?_
      rw [zero_add, ← Pi.single_add]
      refine books_pure ?_ (by decide)
      rw [Script.counted_cons, Script.counted_cons, Script.counted_nil, hcounts, hcounts, add_zero,
        ← Pi.single_add]
    · simp only [hnone, hunique, Bool.false_and, Bool.false_eq_true, if_false]
      exact (quiet_notice _).books_bind fun _ => hone _ (hcounts _ _ _ _ _)

theorem books_indexes (withTablespaces : Bool) (x : Schema × Table) :
    Books 0 (Pi.single .indexes
      (x.2.indexes.values.length + x.2.indexes.values.countP Index.isSplit)) 0
      (indexes withTablespaces x) := by
  have hall := books_each_unchecked fun i (_ : i ∈ x.2.indexes.values) =>
    books_index withTablespaces x.1 x.2 i
  rwa [List.sum_map_add, sum_ite_eq_countP, List.map_const', List.sum_replicate, smul_eq_mul,
    mul_one] at hall

theorem books_foreignKey (k : ForeignKey × String) :
    Books 0 (Pi.single .foreignKeys 1) 0 (foreignKey s t k) := by
  unfold foreignKey
  split
  · exact (quiet_notice _).books_bind fun _ =>
      books_statement (by decide) rfl (List.forall_mem_nil _)
  · exact books_statement (by decide) rfl (List.forall_mem_nil _)

theorem books_identity (k : Column) :
    Books 0 (Pi.single .identities (if k.identity.isSome then 1 else 0)) 0 (identity s t k) := by
  unfold identity
  cases k.identity with
  | none =>
    rw [show (if (none : Option Identity).isSome then 1 else 0) = 0 from rfl, Pi.single_zero]
    exact books_pure rfl rfl
  | some i =>
    refine (quiet_notices _).books_bind fun _ => (quiet_resolve _ _ _).books_bind fun name => ?_
    exact books_statement (by decide) rfl (by simp [Item.counter?])

theorem books_foreignKeys (x : Schema × Table) :
    Books 0 (Pi.single .foreignKeys x.2.foreignKeys.length) 0 (foreignKeys x) := by
  have hlength : x.2.namedForeignKeys.length = x.2.foreignKeys.length := by
    rw [← List.length_map (f := fun k : ForeignKey × String => k.1)]
    exact congrArg List.length (ForeignKeyName.assign_keys _ _ _)
  rw [← hlength]
  exact books_each_one fun k _ => books_foreignKey k

theorem books_identities (x : Schema × Table) :
    Books 0 (Pi.single .identities (x.2.columns.countP fun k => k.identity.isSome)) 0
      (identities x) := by
  rw [← (List.mergeSort_perm x.2.columns fun a b => a.position ≤ b.position).countP_eq]
  exact books_each_if fun k _ => books_identity k

end After

/-- Keys of both kinds in all tables. -/
theorem sum_keys (l : List (Schema × Table)) :
    (fun k : Counter => (l.map fun x =>
      (Pi.single Counter.primaryKeys x.2.primaryKey.toList.length +
        Pi.single Counter.uniqueConstraints x.2.uniqueKeys.length : Counter → ℕ) k).sum) =
      Pi.single Counter.primaryKeys (l.countP fun x => x.2.primaryKey.isSome) +
        Pi.single Counter.uniqueConstraints (l.map fun x => x.2.uniqueKeys.length).sum := by
  have hprimary (x : Schema × Table) :
      x.2.primaryKey.toList.length = if x.2.primaryKey.isSome then 1 else 0 := by
    cases x.2.primaryKey <;> rfl
  simp only [hprimary]
  rw [← sum_ite_eq_countP, ← sum_single, ← sum_single]
  funext k
  exact List.sum_map_add

theorem books_emitAfter (withTablespaces : Bool) (c : Catalog) :
    Books 0 (c.objectsIn .after withTablespaces) 0 (emitAfter withTablespaces c) := by
  intro e
  have hkeys := books_each fun x (_ : x ∈ c.tables) =>
    After.books_keys withTablespaces x
  rw [sum_keys, List.map_const', List.sum_replicate, smul_zero] at hkeys
  have hindexes := books_each_unchecked fun x (_ : x ∈ c.tables) =>
    After.books_indexes withTablespaces x
  have hforeignKeys := books_each_unchecked fun x (_ : x ∈ c.tables) => After.books_foreignKeys x
  have hidentities := books_each_unchecked fun x (_ : x ∈ c.tables) => After.books_identities x
  have hstart : Booked 0 0 0 e [.clientEncoding, .blank] e :=
    booked_uncounted e (by simp [Item.counter?])
  have hall := (((hstart.append (hkeys _)).append (hindexes _)).append (hforeignKeys _)).append
    (hidentities _)
  refine hall.of_eq (funext fun k => ?_) rfl
  cases k <;> simp [Catalog.objectsIn, Counter.part, Catalog.objects]

namespace Unsure

theorem books_check (s : Schema) (t : Table) (k : Check) :
    Books 0 (Pi.single .checkConstraints 1) 1 (check s t k) := by
  have hitem : (Item.addCheck ⟨s.name, t.name⟩ (given k.name) (enclosed k.condition)).isProbed =
    true := rfl
  apply books_count .checkConstraints
  rw [zero_add]
  exact books_checked hitem _ _

theorem books_checks (x : Schema × Table) :
    Books 0 (Pi.single .checkConstraints x.2.checks.length) x.2.checks.length (checks x) := by
  have hall := books_each_single fun k (_ : k ∈ x.2.checks) =>
    books_check x.1 x.2 k
  rwa [List.map_const', List.sum_replicate, smul_eq_mul, mul_one] at hall

theorem books_view (v : View) : Books 0 (Pi.single .views 1) 1 (view v) := by
  have hitem : (Item.createView v.schema v.name (adaptExpression v.statement)).isProbed = true :=
    rfl
  apply books_count .views
  rw [zero_add]
  exact Books.prepend [.searchPath (SearchPath.entries v.context)] (by simp [Item.counter?])
    (books_checked hitem _ _)

theorem books_function (s : Schema) (f : Routine) :
    Books 0 (Pi.single .functions 1) 0 (function s f) :=
  books_statement (by decide) rfl (List.forall_mem_nil _)

theorem books_trigger (s : Schema) (entry : String × Trigger) :
    Books 0 (Pi.single .triggers 1) 0 (trigger s entry) := by
  have hrest : ∀ item ∈
      (entry.2.comment.map (Item.commentFunction s.name (entry.1 ++ "_fn"))).toList ++
        [Item.remark "-- Add the CREATE TRIGGER too!", Item.blank], item.counter? = none := by
    rw [List.forall_mem_append, List.forall_mem_cons, List.forall_mem_singleton]
    refine ⟨fun item hitem => ?_, rfl, rfl⟩
    obtain ⟨text, -, rfl⟩ := Option.map_eq_some_iff.1 (Option.mem_toList.1 hitem)
    rfl
  exact books_statement (by decide) rfl hrest

theorem validations_uncounted (x : Schema × Table) :
    ∀ item ∈ validations x, item.counter? = none := by
  intro item hitem
  obtain ⟨k, -, rfl⟩ := List.mem_map.1 hitem
  rfl

theorem viewComments_uncounted (s : Schema) : ∀ item ∈ viewComments s, item.counter? = none := by
  intro item hitem
  cases isViewComment_of_mem item hitem <;> rfl

end Unsure

/-- The texts that are checked: a check for every constraint and every view. -/
def Catalog.checkCount (c : Catalog) : ℕ :=
  (c.tables.map fun x => x.2.checks.length).sum + c.views.length

theorem books_emitUnsure (withTablespaces : Bool) (c : Catalog) :
    Books 0 (c.objectsIn .unsure withTablespaces) c.checkCount (emitUnsure c) := by
  intro e
  have hpreamble : Booked 0 0 0 e Unsure.preamble e :=
    booked_uncounted e (by simp [Unsure.preamble, Item.counter?])
  have hvalidations := booked_uncounted e
    (List.forall_mem_flatMap.2 fun x (_ : x ∈ c.tables) => Unsure.validations_uncounted x)
  have hcomments (e : Emission) := booked_uncounted e
    (List.forall_mem_flatMap.2 fun s (_ : s ∈ c.schemas.values) => Unsure.viewComments_uncounted s)
  have hblank (e : Emission) : Booked 0 0 0 e [.blank] e :=
    booked_uncounted e (by simp [Item.counter?])
  have hbanner (objects : String) (e : Emission) :
      Booked 0 0 0 e [.remark (Unsure.banner objects)] e :=
    booked_uncounted e (by simp [Item.counter?])
  have hchecks := books_each_single fun x (_ : x ∈ c.tables) => Unsure.books_checks x
  have hviews := books_each_single fun v (_ : v ∈ c.views) => Unsure.books_view v
  have hfunctions := books_each_unchecked fun s (_ : s ∈ c.schemas.values) =>
    books_each_one fun f (_ : f ∈ s.routines.values) => Unsure.books_function s f
  have htriggers := books_each_unchecked fun s (_ : s ∈ c.schemas.values) =>
    books_each_one fun entry (_ : entry ∈ s.triggers.entries) =>
      Unsure.books_trigger s entry
  have hall := (((((((((((hpreamble.append hvalidations).append (hchecks _)).append
    (hblank _)).append (hviews _)).append (hcomments _)).append (hblank _)).append
    (hbanner "functions" _)).append (hfunctions _)).append (hblank _)).append
    (hbanner "triggers" _)).append (htriggers _))
  refine hall.of_eq (funext fun k => ?_) ?_
  · cases k <;> simp [Catalog.objectsIn, Counter.part, Catalog.objects]
  · simp [Catalog.checkCount]

theorem Catalog.objects_eq_sum (withTablespaces : Bool) (c : Catalog) :
    c.objects withTablespaces = c.objectsIn .before withTablespaces +
      c.objectsIn .after withTablespaces + c.objectsIn .unsure withTablespaces := by
  funext k
  cases hpart : k.part <;> simp [objectsIn, hpart]

theorem booked_emitScripts {e e' : Emission} {scripts : Scripts}
    (h : (emitScripts withTablespaces c).run e = (.ok scripts, e')) :
    Booked 0 (c.objects withTablespaces) c.checkCount e
      (scripts.before ++ scripts.after ++ scripts.unsure) e' := by
  obtain ⟨hbefore, f, hafter, hunsure⟩ := emitScripts_runs h
  have hsecond := books_emitAfter withTablespaces c ((emitBefore withTablespaces c).run e).2
  have hthird := books_emitUnsure withTablespaces c f
  rw [hafter] at hsecond
  rw [hunsure] at hthird
  refine (((booked_emitBefore hbefore).append hsecond).append hthird).of_eq
    (Catalog.objects_eq_sum withTablespaces c).symm ?_
  rw [zero_add, zero_add]

/-- What the tally says after all scripts: for each counter how many statements of its kind there
are, which is the number of objects of this kind; and of the checks, of which there is one for each
view and each check constraint, how many found a problem. As many remarks were written, each right
before a statement that was checked. In the texts of the scripts each of these statements and
remarks has the words of its kind. -/
theorem emitScripts_tally {verdicts : List Verdict} {e : Emission} {scripts : Scripts}
    (h : (emitScripts withTablespaces c).run (.start c verdicts) = (.ok scripts, e)) :
    (∀ k, e.tally.get k = (scripts.before ++ scripts.after ++ scripts.unsure).counted k) ∧
      (∀ k, k ≠ .probeFailures → e.tally.get k = c.objects withTablespaces k) ∧
      e.probed.length = c.views.length + (c.tables.map fun x => x.2.checks.length).sum ∧
      e.tally.probeFailures = rejections (verdicts.take e.probed.length) ∧
      (scripts.before ++ scripts.after ++ scripts.unsure).Warned ∧
      ∀ s ∈ [scripts.before, scripts.after, scripts.unsure],
        s.Tells Item.counter? fun k => HasWords k.words := by
  have hbooked := booked_emitScripts h
  have hget : (Emission.start c verdicts).tally.get = 0 := by
    funext k
    cases k <;> rfl
  have htally : e.tally.get = (scripts.before ++ scripts.after ++ scripts.unsure).counted := by
    simpa [hget] using hbooked.tally
  have hprobed : e.probed.length = c.checkCount := by
    simpa [Emission.start] using hbooked.probed
  refine ⟨congrFun htally, fun k hk => ?_, ?_, ?_, hbooked.warned,
    fun s _ => s.tells fun _ _ => Item.hasWords⟩
  · rw [htally]
    exact hbooked.objects k hk
  · rw [hprobed, Catalog.checkCount, Nat.add_comm]
  · rw [hprobed]
    exact (congrFun htally .probeFailures).trans hbooked.failures

/-- A unique index that needs a second one, and a view that is rejected. -/
theorem emitScripts_tally_rejected :
    let index : Index :=
      { name := "I", indexSchema := "S", unique := true, columns := [⟨"A", none⟩]
        includeColumns := ["B"] }
    let table : Table :=
      { name := "T"
        columns := [{ name := "A", type := "INTEGER", dumpType := "INTEGER", position := 1 }]
        indexes := Keyed.empty.insert "I" index }
    let c : Catalog :=
      { schemas := Keyed.empty.insert "S" { name := "S", tables := Keyed.empty.insert "T" table }
        views := [⟨"S", "V", "AS SELECT", {}⟩] }
    let verdicts : List Verdict := [.rejected "SyntaxError" "", .accepted]
    ∃ scripts e, (emitScripts false c).run (.start c verdicts) = (.ok scripts, e) ∧
      e.tally.get .tables = 1 ∧ e.tally.get .indexes = 2 ∧ e.tally.get .views = 1 ∧
      e.probed.length = 1 ∧ e.tally.probeFailures = 1 ∧
      scripts.unsure.Tells Item.counter? fun k => HasWords k.words := by
  intro index table c verdicts
  obtain ⟨scripts, e, hrun⟩ :=
    emitScripts_of_columns false (.start c verdicts) (c := c) (by decide +kernel)
  obtain ⟨-, hobjects, hprobed, hfailures, -, htells⟩ := emitScripts_tally hrun
  have hone : e.probed.length = 1 := hprobed.trans (by decide +kernel)
  refine ⟨scripts, e, hrun, ?_, ?_, ?_, hone, ?_, htells _ (by simp)⟩
  · exact (hobjects .tables (by decide)).trans (by decide +kernel)
  · exact (hobjects .indexes (by decide)).trans (by decide +kernel)
  · exact (hobjects .views (by decide)).trans (by decide +kernel)
  · rw [hfailures, hone]
    decide +kernel

end SchemaTransfer
