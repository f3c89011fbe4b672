import SchemaTransfer.Proofs.Names.Requests
import SchemaTransfer.Conversion

/-!
# The requests of an emission

`Part.requests` lists what each script asks names for, read off the catalog alone: sequences for
the first script; named keys, indexes and identities, in this order, for the second; nothing for
the third. `Gives` says that an action makes exactly certain requests and that its items introduce
exactly the names they were answered with. It goes through the loops of an emission piece by piece;
counting, noticing and checking change no names.
-/
namespace SchemaTransfer

/-- The schema and the name under which an item introduces a sequence, a key or an index. -/
def Item.introduced? : Item → Option (String × String)
  | .createSequence schema name _ _ => some (schema, name)
  | .addPrimaryKey table name _ _ => name.map (table.schema, ·)
  | .addUnique table name _ _ => name.map (table.schema, ·)
  | .createIndex _ name table _ _ => some (table.schema, name)
  | _ => none

def Script.introduced (s : Script) : List (String × String) := s.filterMap Item.introduced?

@[simp] theorem Script.introduced_nil : Script.introduced [] = [] := rfl

@[simp] theorem Script.introduced_cons (i : Item) (s : Script) :
    Script.introduced (i :: s) = i.introduced?.toList ++ Script.introduced s := by
  cases h : i.introduced? <;> simp [Script.introduced, h]

@[simp] theorem Script.introduced_append (s t : Script) :
    Script.introduced (s ++ t) = Script.introduced s ++ Script.introduced t :=
  List.filterMap_append

/-- The name of an answer with the schema that was asked about. -/
def Answer.introduced (a : Answer) : String × String := (a.schema, a.name)

/-- One of the three scripts. -/
inductive Part
  | before
  | after
  | unsure
  deriving DecidableEq, Inhabited

namespace Part

def emit (withTablespaces : Bool) (c : Catalog) : Part → Emit (Except Failure Script)
  | before => emitBefore withTablespaces c
  | after => do return .ok (← emitAfter withTablespaces c)
  | unsure => do return .ok (← emitUnsure c)

def sequenceRequest (s : Schema) (q : Sequence) : Request := ⟨s.name, q.name, "sequence"⟩

/-- A key without a name asks for none. -/
def keyRequests (s : Schema) (kind : String) (k : Key) : List Request :=
  ((given k.name).map fun name => ⟨s.name, name, kind⟩).toList

def tableKeyRequests (e : Schema × Table) : List Request :=
  e.2.primaryKey.toList.flatMap (keyRequests e.1 "pk") ++
    e.2.uniqueKeys.flatMap (keyRequests e.1 "unique")

/-- A unique index with included columns asks for a second name. -/
def indexRequests (s : Schema) (i : Index) : List Request :=
  ⟨s.name, i.name, "index"⟩ ::
    if i.unique && !i.includeColumns.isEmpty then [⟨s.name, i.name ++ "_cov1", "index"⟩] else []

def identityRequests (s : Schema) (t : Table) (c : Column) : List Request :=
  (c.identity.map fun _ => ⟨s.name, t.name ++ "_" ++ c.name ++ "_seq", "sequence"⟩).toList

/-- What a script asks names for, in its order. -/
def requests (c : Catalog) : Part → List Request
  | before => c.schemas.values.flatMap fun s => s.sequences.values.map (sequenceRequest s)
  | after =>
    c.tables.flatMap tableKeyRequests ++
      c.tables.flatMap (fun e => e.2.indexes.values.flatMap (indexRequests e.1)) ++
      c.tables.flatMap fun e => e.2.sortedColumns.flatMap (identityRequests e.1 e.2)
  | unsure => []

end Part

/-- Emits several scripts one after the other; one that fails does not keep the others back. -/
def emitParts (withTablespaces : Bool) (c : Catalog) :
    List Part → Emit (List (Except Failure Script))
  | [] => pure []
  | p :: rest => do
    let script ← p.emit withTablespaces c
    let others ← emitParts withTablespaces c rest
    return script :: others

namespace Emit

variable {α β : Type}

/-- Stated for any action, as the result of a particular one is too large to be compared. -/
theorem run_bind (m : Emit α) (k : α → Emit β) (e : Emission) :
    (m >>= k).run e = (k (m.run e).1).run (m.run e).2 := rfl

/-- The names stay as they are. -/
def Silent (m : Emit α) : Prop := ∀ e, (m.run e).2.names = e.names

theorem silent_notice (n : Notice) : Silent (notice n) := fun _ => rfl

theorem silent_count (f : Tally → Tally) : Silent (count f) := fun _ => rfl

theorem silent_probe (sql : String) : Silent (probe sql) := fun _ => rfl

theorem silent_pure (a : α) : Silent (pure a : Emit α) := fun _ => rfl

theorem Silent.bind {m : Emit α} {k : α → Emit β} (hm : Silent m) (hk : ∀ a, Silent (k a)) :
    Silent (m >>= k) :=
  fun e => (hk (m.run e).1 (m.run e).2).trans (hm e)

theorem silent_notices (ns : List Notice) : Silent (ns.forM notice) := by
  induction ns with
  | nil => exact silent_pure ()
  | cons n ns ih => exact (silent_notice n).bind fun _ => ih

/-- The action makes the requests, and what its items introduce is `before` and then the names
that the requests were answered with. -/
def Gives (before : List (String × String)) (m : Emit Script) (rs : List Request) : Prop :=
  ∀ e, (m.run e).2.names = (e.names.serveAll rs).2 ∧
    Script.introduced (m.run e).1 = before ++ (e.names.serveAll rs).1.map Answer.introduced

variable {before : List (String × String)} {rs ts : List Request}

theorem gives_pure {items : Script} (h : items.introduced = before) :
    Gives before (pure items) [] :=
  fun _ => ⟨rfl, h.trans (List.append_nil _).symm⟩

theorem Gives.bind {m : Emit Script} {k : Script → Emit Script} (hm : Gives [] m rs)
    (hk : ∀ items, Gives (before ++ items.introduced) (k items) ts) :
    Gives before (m >>= k) (rs ++ ts) := by
  intro e
  obtain ⟨hnames, hitems⟩ := hm e
  obtain ⟨hnames', hitems'⟩ := hk (m.run e).1 (m.run e).2
  rw [hnames] at hnames' hitems'
  rw [Names.serveAll_append]
  refine ⟨hnames', hitems'.trans ?_⟩
  rw [hitems, List.nil_append, List.map_append, List.append_assoc]

theorem Silent.gives_bind {m : Emit α} {k : α → Emit Script} (hm : Silent m)
    (hk : ∀ a, Gives before (k a) rs) : Gives before (m >>= k) rs := by
  intro e
  have := hk (m.run e).1 (m.run e).2
  rwa [hm e] at this

/-- A resolved name is the answer to a request. The request is kept closed, for its evaluation is
nothing to compare by. -/
theorem run_resolve (schema desired kind : String) (e : Emission) :
    ((resolve schema desired kind).run e).1 = (e.names.serve ⟨schema, desired, kind⟩).1.name ∧
      ((resolve schema desired kind).run e).2.names =
        (e.names.serve ⟨schema, desired, kind⟩).2 := by
  unfold StateT.run resolve Names.serve
  dsimp only
  generalize e.names.resolve schema desired kind = answer
  exact ⟨rfl, rfl⟩

/-- A request, and what is done with the name that answers it. -/
theorem gives_resolve {schema desired kind : String} {k : String → Emit Script}
    (hk : ∀ name, Gives (before ++ [(schema, name)]) (k name) rs) :
    Gives before (resolve schema desired kind >>= k) (⟨schema, desired, kind⟩ :: rs) := by
  intro e
  obtain ⟨hname, hnames⟩ := run_resolve schema desired kind e
  have hrequest := e.names.serve_request ⟨schema, desired, kind⟩
  have hrest := hk ((resolve schema desired kind).run e).1 ((resolve schema desired kind).run e).2
  rw [hnames, hname] at hrest
  rw [run_bind, Names.serveAll, hname]
  generalize e.names.serve ⟨schema, desired, kind⟩ = answer at hrequest hrest ⊢
  refine ⟨hrest.1, hrest.2.trans ?_⟩
  rw [List.append_assoc]
  have hintroduced : answer.1.introduced = (schema, answer.1.name) := by
    rw [Answer.introduced, hrequest]
  simp [hintroduced]

theorem gives_each {f : α → Emit Script} {requests : α → List Request} {l : List α}
    (h : ∀ a ∈ l, Gives [] (f a) (requests a)) : Gives [] (each f l) (l.flatMap requests) := by
  induction l with
  | nil => exact gives_pure rfl
  | cons a l ih =>
    have hrest := ih fun b hb => h b (List.mem_cons_of_mem _ hb)
    rw [List.flatMap_cons, ← List.append_nil (l.flatMap requests)]
    refine (h a List.mem_cons_self).bind fun items => hrest.bind fun more => ?_
    exact gives_pure (Script.introduced_append items more)

/-- Members that ask for nothing. -/
theorem gives_each_nil {f : α → Emit Script} {l : List α} (h : ∀ a ∈ l, Gives [] (f a) []) :
    Gives [] (each f l) [] := by
  have hall : Gives [] (each f l) (l.flatMap fun _ => []) := gives_each h
  rwa [List.flatMap_eq_nil_iff.2 fun _ _ => rfl] at hall

/-- Like `Gives` for an action that can fail; the requests are made all the same. -/
def GivesIfOk (before : List (String × String)) (m : Emit (Except Failure Script))
    (rs : List Request) : Prop :=
  ∀ e, (m.run e).2.names = (e.names.serveAll rs).2 ∧
    ∀ items, (m.run e).1 = .ok items →
      Script.introduced items = before ++ (e.names.serveAll rs).1.map Answer.introduced

theorem Gives.ifOk {m : Emit Script} (h : Gives before m rs) :
    GivesIfOk before (do return .ok (← m)) rs := by
  intro e
  obtain ⟨hnames, hitems⟩ := h e
  refine ⟨hnames, fun items hok => ?_⟩
  obtain rfl : (m.run e).1 = items := Except.ok.inj hok
  exact hitems

theorem Silent.givesIfOk_bind {m : Emit α} {k : α → Emit (Except Failure Script)} (hm : Silent m)
    (hk : ∀ a, GivesIfOk before (k a) rs) : GivesIfOk before (m >>= k) rs := by
  intro e
  have := hk (m.run e).1 (m.run e).2
  rwa [hm e] at this

theorem Gives.bindIfOk {m : Emit Script} {k : Script → Emit (Except Failure Script)}
    (hm : Gives [] m rs) (hk : ∀ items, GivesIfOk (before ++ items.introduced) (k items) ts) :
    GivesIfOk before (m >>= k) (rs ++ ts) := by
  intro e
  obtain ⟨hnames, hitems⟩ := hm e
  obtain ⟨hnames', hitems'⟩ := hk (m.run e).1 (m.run e).2
  rw [hnames] at hnames' hitems'
  rw [Names.serveAll_append]
  refine ⟨hnames', fun items hok => (hitems' items hok).trans ?_⟩
  rw [hitems, List.nil_append, List.map_append, List.append_assoc]

/-- Items put in front of what the action gives, if it does not fail. -/
theorem GivesIfOk.prepend {m : Emit (Except Failure Script)} {items : Script}
    (hm : GivesIfOk [] m rs) (h : items.introduced = before) :
    GivesIfOk before (do return (← m).map (items ++ ·)) rs := by
  intro e
  obtain ⟨hnames, hitems⟩ := hm e
  refine ⟨hnames, fun all hok => ?_⟩
  replace hok : (m.run e).1.map (items ++ ·) = .ok all := hok
  cases hrun : (m.run e).1 with
  | error failure =>
    rw [hrun] at hok
    cases hok
  | ok more =>
    rw [hrun] at hok
    obtain rfl := Except.ok.inj hok
    rw [Script.introduced_append, h, hitems more hrun, List.nil_append]

end Emit

namespace Before
open Emit

theorem gives_tablespace (entry : String × Tablespace) : Gives [] (tablespace entry) [] := by
  unfold tablespace
  split
  · exact (silent_notice _).gives_bind fun _ => gives_pure rfl
  · exact (silent_count _).gives_bind fun _ => gives_pure rfl

theorem gives_role (entry : String × Role) : Gives [] (role entry) [] := by
  refine (silent_count _).gives_bind fun _ => gives_pure ?_
  cases entry.2.comment <;> rfl

theorem gives_schema (s : Schema) : Gives [] (schema s) [] :=
  (silent_count _).gives_bind fun _ => gives_pure rfl

theorem gives_sequence (s : Schema) (q : Sequence) :
    Gives [] (sequence s q) [Part.sequenceRequest s q] := by
  refine gives_resolve fun name => (silent_notices _).gives_bind fun _ => ?_
  refine (silent_count _).gives_bind fun _ => gives_pure ?_
  cases q.resolvedRestart <;> rfl

theorem gives_sequences (s : Schema) (l : List Sequence) :
    Gives [] (each (sequence s) l) (l.map (Part.sequenceRequest s)) := by
  rw [← List.flatMap_singleton' (l.map _), List.flatMap_map]
  exact gives_each fun q _ => gives_sequence s q

theorem gives_domain (s : Schema) (entry : String × Domain) : Gives [] (domain s entry) [] :=
  (silent_count _).gives_bind fun _ => gives_pure rfl

theorem gives_tablespaces (withTablespaces : Bool) (c : Catalog) :
    Gives [] (tablespaces withTablespaces c) [] := by
  unfold tablespaces
  split
  · refine (gives_each_nil fun e _ => gives_tablespace e).bind fun items => gives_pure ?_
    exact (Script.introduced_append _ _).trans (List.append_nil _)
  · exact gives_pure rfl

theorem gives_preamble (withTablespaces : Bool) (c : Catalog) :
    Gives [] (preamble withTablespaces c) (Part.requests c .before) := by
  suffices h : Gives [] (preamble withTablespaces c)
      ([] ++ ([] ++ ([] ++ (Part.requests c .before ++ ([] ++ []))))) by simpa using h
  refine (gives_tablespaces _ c).bind fun tablespaces => ?_
  refine (gives_each_nil fun e _ => gives_role e).bind fun roles => ?_
  refine (gives_each_nil fun s _ => gives_schema s).bind fun schemas => ?_
  refine (gives_each fun s _ => gives_sequences s _).bind fun sequences => ?_
  refine (gives_each_nil fun s _ => gives_each_nil fun e _ => gives_domain s e).bind
    fun domains => gives_pure ?_
  simp [Item.introduced?]

/-- A comment on a table or on a column of it. -/
inductive IsComment (table : TableName) : Item → Prop
  | commentTable (text : String) : IsComment table (.commentTable table text)
  | commentColumn (column text : String) : IsComment table (.commentColumn table column text)

theorem isComment_of_mem {name : TableName} {t : Table} :
    ∀ item ∈ comments name t, IsComment name item := by
  intro item h
  rcases List.mem_append.1 h with h | h
  · obtain ⟨text, -, rfl⟩ := Option.map_eq_some_iff.1 (Option.mem_toList.1 h)
    exact .commentTable text
  · obtain ⟨column, -, h⟩ := List.mem_flatMap.1 h
    obtain ⟨text, -, rfl⟩ := Option.map_eq_some_iff.1 (Option.mem_toList.1 h)
    exact .commentColumn column.name text

theorem comments_introduced (name : TableName) (t : Table) :
    Script.introduced (comments name t) = [] := by
  refine List.filterMap_eq_nil_iff.2 fun item h => ?_
  cases isComment_of_mem item h <;> rfl

theorem table_introduced {withTablespaces : Bool} {s : Schema} {t : Table} {items : Script}
    (h : table withTablespaces s t = .ok items) : items.introduced = [] := by
  unfold table at h
  cases hcolumns : columns t.sortedColumns with
  | error failure => simp [hcolumns, Except.map] at h
  | ok columns =>
    rw [hcolumns] at h
    obtain rfl := Except.ok.inj h
    simp [comments_introduced, Item.introduced?]

/-- Tables keep their names, so they ask for none. -/
theorem gives_tables (withTablespaces : Bool) (entries : List (Schema × Table)) :
    GivesIfOk [] (tables withTablespaces entries) [] := by
  induction entries with
  | nil => exact (gives_pure rfl : Gives [] (pure []) []).ifOk
  | cons entry rest ih =>
    unfold tables
    cases htable : table withTablespaces entry.1 entry.2 with
    | error failure => exact fun e => ⟨rfl, fun items hok => by cases hok⟩
    | ok items =>
      exact (silent_count _).givesIfOk_bind fun _ => ih.prepend (table_introduced htable)

end Before

theorem gives_emitBefore (withTablespaces : Bool) (c : Catalog) :
    Emit.GivesIfOk [] (emitBefore withTablespaces c) (Part.requests c .before) := by
  rw [← List.append_nil (Part.requests c .before)]
  exact (Before.gives_preamble withTablespaces c).bindIfOk fun items =>
    (Before.gives_tables withTablespaces c.tables).prepend rfl

namespace After
open Emit

variable {before : List (String × String)} {rs : List Request}

theorem gives_keyName {s : Schema} {k : Key} {kind : String} {f : Option String → Emit Script}
    (hf : ∀ name : Option String,
      Gives (before ++ (name.map (s.name, ·)).toList) (f name) rs) :
    Gives before (keyName s k kind >>= f) (Part.keyRequests s kind k ++ rs) := by
  unfold keyName Part.keyRequests
  cases given k.name with
  | none =>
    have := hf none
    rwa [Option.map_none, Option.toList_none, List.append_nil] at this
  | some wanted =>
    simp only [bind_assoc, pure_bind]
    exact gives_resolve fun name => hf (some name)

theorem gives_primaryKey (withTablespaces : Bool) (s : Schema) (t : Table) (k : Key) :
    Gives [] (primaryKey withTablespaces s t k) (Part.keyRequests s "pk" k) := by
  rw [← List.append_nil (Part.keyRequests s "pk" k)]
  refine gives_keyName fun name => (silent_count _).gives_bind fun _ => gives_pure ?_
  simp [Item.introduced?]

theorem gives_uniqueKey (withTablespaces : Bool) (s : Schema) (t : Table) (k : Key) :
    Gives [] (uniqueKey withTablespaces s t k) (Part.keyRequests s "unique" k) := by
  rw [← List.append_nil (Part.keyRequests s "unique" k)]
  refine gives_keyName fun name => (silent_count _).gives_bind fun _ => gives_pure ?_
  simp [Item.introduced?]

theorem gives_keys (withTablespaces : Bool) (e : Schema × Table) :
    Gives [] (keys withTablespaces e) (Part.tableKeyRequests e) := by
  suffices h : Gives [] (keys withTablespaces e)
      (e.2.primaryKey.toList.flatMap (Part.keyRequests e.1 "pk") ++
        (e.2.uniqueKeys.flatMap (Part.keyRequests e.1 "unique") ++ [])) by
    simpa [Part.tableKeyRequests] using h
  refine (gives_each fun k _ => gives_primaryKey _ _ _ k).bind fun primary => ?_
  refine (gives_each fun k _ => gives_uniqueKey _ _ _ k).bind fun unique => gives_pure ?_
  exact Script.introduced_append _ _

theorem gives_index (withTablespaces : Bool) (s : Schema) (t : Table) (i : Index) :
    Gives [] (index withTablespaces s t i) (Part.indexRequests s i) := by
  unfold index Part.indexRequests
  refine gives_resolve fun name => (silent_count _).gives_bind fun _ => ?_
  by_cases hnone : i.includeColumns.isEmpty
  · simp only [hnone, if_true, Bool.not_true, Bool.and_false, Bool.false_eq_true, if_false]
    exact gives_pure rfl
  · by_cases hunique : i.unique
    · simp only [hnone, hunique, if_true, Bool.and_true, Bool.not_false, Bool.false_eq_true,
        if_false]
      refine gives_resolve fun covering => (silent_notice _).gives_bind fun _ => ?_
      exact (silent_count _).gives_bind fun _ => gives_pure rfl
    · simp only [hnone, hunique, Bool.false_and, Bool.false_eq_true, if_false]
      exact (silent_notice _).gives_bind fun _ => gives_pure rfl

theorem gives_foreignKey (s : Schema) (t : Table) (k : ForeignKey × String) :
    Gives [] (foreignKey s t k) [] := by
  unfold foreignKey
  split
  · exact (silent_notice _).gives_bind fun _ => (silent_count _).gives_bind fun _ => gives_pure rfl
  · exact (silent_count _).gives_bind fun _ => gives_pure rfl

theorem gives_identity (s : Schema) (t : Table) (c : Column) :
    Gives [] (identity s t c) (Part.identityRequests s t c) := by
  unfold identity Part.identityRequests
  cases c.identity with
  | none => exact gives_pure rfl
  | some i =>
    refine (silent_notices _).gives_bind fun _ => gives_resolve fun name => ?_
    exact (silent_count _).gives_bind fun _ => gives_pure rfl

end After

theorem gives_emitAfter (withTablespaces : Bool) (c : Catalog) :
    Emit.Gives [] (emitAfter withTablespaces c) (Part.requests c .after) := by
  suffices h : Emit.Gives [] (emitAfter withTablespaces c)
      (c.tables.flatMap Part.tableKeyRequests ++
        (c.tables.flatMap (fun e => e.2.indexes.values.flatMap (Part.indexRequests e.1)) ++
          ([] ++ (c.tables.flatMap (fun e =>
            e.2.sortedColumns.flatMap (Part.identityRequests e.1 e.2)) ++ [])))) by
    simpa [Part.requests] using h
  refine (Emit.gives_each fun e _ => After.gives_keys _ e).bind fun keys => ?_
  refine (Emit.gives_each fun e _ =>
    Emit.gives_each fun i _ => After.gives_index _ _ _ i).bind fun indexes => ?_
  refine (Emit.gives_each_nil fun e _ =>
    Emit.gives_each_nil fun k _ => After.gives_foreignKey _ _ k).bind fun foreignKeys => ?_
  refine (Emit.gives_each fun e _ =>
    Emit.gives_each fun i _ => After.gives_identity _ _ i).bind fun identities => ?_
  exact Emit.gives_pure (by simp [Item.introduced?])

namespace Unsure
open Emit

theorem gives_checked {item : Item} (h : item.introduced? = none) (object text : String) :
    Gives [] (checked item object text) [] := by
  refine (silent_probe text).gives_bind fun problem => ?_
  cases problem with
  | none => exact gives_pure (by simp [h])
  | some problem =>
    refine (silent_notice _).gives_bind fun _ => (silent_count _).gives_bind fun _ => ?_
    exact gives_pure (by rw [Script.introduced_cons, Script.introduced_cons, h]; rfl)

theorem gives_check (s : Schema) (t : Table) (k : Check) : Gives [] (check s t k) [] :=
  (silent_count _).gives_bind fun _ => gives_checked rfl _ _

theorem gives_view (v : View) : Gives [] (view v) [] := by
  refine (silent_count _).gives_bind fun _ => ?_
  refine (gives_checked rfl _ _).bind fun items => gives_pure ?_
  simp [Item.introduced?]

theorem gives_function (s : Schema) (f : Routine) : Gives [] (function s f) [] :=
  (silent_count _).gives_bind fun _ => gives_pure rfl

theorem gives_trigger (s : Schema) (e : String × Trigger) : Gives [] (trigger s e) [] := by
  refine (silent_count _).gives_bind fun _ => gives_pure ?_
  cases e.2.comment <;> simp [Item.introduced?]

theorem validations_introduced (e : Schema × Table) : Script.introduced (validations e) = [] := by
  refine List.filterMap_eq_nil_iff.2 fun item h => ?_
  obtain ⟨k, -, rfl⟩ := List.mem_map.1 h
  rfl

/-- A comment that is kept for a view or for a column of it. -/
inductive IsViewComment (s : Schema) : Item → Prop
  | commentView (name text : String) : IsViewComment s (.commentView s.name name text)
  | commentColumn (name column text : String) :
      IsViewComment s (.commentColumn ⟨s.name, name⟩ column text)

theorem isViewComment_of_mem {s : Schema} : ∀ item ∈ viewComments s, IsViewComment s item := by
  intro item h
  rcases List.mem_append.1 h with h | h
  · obtain ⟨e, -, rfl⟩ := List.mem_map.1 h
    exact .commentView e.1 e.2
  · obtain ⟨e, -, h⟩ := List.mem_flatMap.1 h
    obtain ⟨k, -, rfl⟩ := List.mem_map.1 h
    exact .commentColumn e.1 k.1 k.2

theorem viewComments_introduced (s : Schema) : Script.introduced (viewComments s) = [] := by
  refine List.filterMap_eq_nil_iff.2 fun item h => ?_
  cases isViewComment_of_mem item h <;> rfl

end Unsure

theorem Script.introduced_flatMap {α : Type} {f : α → Script} (l : List α)
    (h : ∀ a, (f a).introduced = []) : Script.introduced (l.flatMap f) = [] := by
  induction l with
  | nil => rfl
  | cons a l ih => rw [List.flatMap_cons, introduced_append, h, ih, List.append_nil]

theorem gives_emitUnsure (c : Catalog) : Emit.Gives [] (emitUnsure c) [] := by
  suffices h : Emit.Gives [] (emitUnsure c) ([] ++ ([] ++ ([] ++ ([] ++ [])))) from h
  refine (Emit.gives_each_nil fun e _ =>
    Emit.gives_each_nil fun k _ => Unsure.gives_check _ _ k).bind fun checks => ?_
  refine (Emit.gives_each_nil fun v _ => Unsure.gives_view v).bind fun views => ?_
  refine (Emit.gives_each_nil fun s _ =>
    Emit.gives_each_nil fun f _ => Unsure.gives_function s f).bind fun functions => ?_
  refine (Emit.gives_each_nil fun s _ =>
    Emit.gives_each_nil fun e _ => Unsure.gives_trigger s e).bind fun triggers => ?_
  have hvalidations := Script.introduced_flatMap c.tables Unsure.validations_introduced
  have hcomments := Script.introduced_flatMap c.schemas.values Unsure.viewComments_introduced
  exact Emit.gives_pure (by simp [hvalidations, hcomments, Unsure.preamble, Item.introduced?])

theorem Part.gives_emit (withTablespaces : Bool) (c : Catalog) (p : Part) :
    Emit.GivesIfOk [] (p.emit withTablespaces c) (p.requests c) := by
  cases p with
  | before => exact gives_emitBefore withTablespaces c
  | after => exact (gives_emitAfter withTablespaces c).ifOk
  | unsure => exact (gives_emitUnsure c).ifOk

theorem emitParts_serveEach (withTablespaces : Bool) (c : Catalog) (parts : List Part)
    (e : Emission) :
    ((emitParts withTablespaces c parts).run e).2.names =
        (e.names.serveEach (parts.map (Part.requests c))).2 ∧
      List.Forall₂ (fun script answers => ∀ items, script = Except.ok items →
          Script.introduced items = answers.map Answer.introduced)
        ((emitParts withTablespaces c parts).run e).1
        (e.names.serveEach (parts.map (Part.requests c))).1 := by
  induction parts generalizing e with
  | nil => exact ⟨rfl, .nil⟩
  | cons p rest ih =>
    obtain ⟨hnames, hitems⟩ := p.gives_emit withTablespaces c e
    obtain ⟨hnames', hitems'⟩ := ih ((p.emit withTablespaces c).run e).2
    rw [hnames] at hnames' hitems'
    exact ⟨hnames', .cons hitems hitems'⟩

/-- The names in a run of scripts, in any order and number, of which some may fail: what each
script introduces, that no name is given out twice in a schema or is that of a table, that no
entry is overwritten, what the registry holds in the end, and the renames. -/
theorem names_of_emitParts (withTablespaces : Bool) (c : Catalog) (verdicts : List Verdict)
    (parts : List Part) :
    let start := Emission.start c verdicts
    let tables := c.tables.map fun e => (e.1.name, e.2.name)
    let requests := parts.map (Part.requests c)
    let served := start.names.serveEach requests
    let answers := served.1.flatten
    let run := (emitParts withTablespaces c parts).run start
    served.1.map (List.map Answer.toRequest) = requests ∧
      List.Forall₂ (fun script answers => ∀ items, script = Except.ok items →
        Script.introduced items = answers.map Answer.introduced) run.1 served.1 ∧
      run.2.names = served.2 ∧
      (answers.Pairwise fun a b => a.place = b.place → a.name ≠ b.name) ∧
      (∀ a ∈ answers, ¬ Names.IsTable tables a.place a.name) ∧
      (∀ past future, requests.flatten = past ++ future → ∀ schema name kind,
        (start.names.serveAll past).2.kind? schema name = some kind →
          run.2.names.kind? schema name = some kind) ∧
      (answers ≠ [] → ∀ schema name kind, run.2.names.kind? schema name = some kind ↔
        (Names.IsTable tables schema name ∧ kind = "table") ∨
          ∃ a ∈ answers, a.place = schema ∧ a.name = name ∧ a.kind = kind) ∧
      run.2.names.renames = answers.filterMap Answer.rename? := by
  intro start tables requests served answers run
  obtain ⟨hnames, hscripts⟩ := emitParts_serveEach withTablespaces c parts start
  have hserved : start.names.serveAll requests.flatten = (answers, served.2) :=
    start.names.serveEach_flatten requests
  have haccounts := Names.accounts_serveAll tables requests.flatten
  rw [show Names.ofTables tables = start.names from rfl, hserved, ← hnames] at haccounts
  refine ⟨Names.serveEach_requests _ _, hscripts, hnames, haccounts.distinct, haccounts.apart,
    fun past future hsplit schema name kind hentry => ?_, fun hsome => ?_, ?_⟩
  · have hlast := Names.kind?_serveAll_append hentry future
    rwa [← hsplit, show Names.ofTables tables = start.names from rfl, hserved, ← hnames] at hlast
  · have hseeded : run.2.names.pending = [] := by
      have hrequests : requests.flatten ≠ [] := fun hnil => hsome <| by
        rw [hnil] at hserved
        exact (congrArg Prod.fst hserved).symm
      have := start.names.serveAll_pending_of_ne_nil hrequests
      rwa [hserved, ← hnames] at this
    have hregistry := haccounts.registry
    rwa [Names.settle_eq_self hseeded] at hregistry
  · exact (Names.settle_renames _).symm.trans haccounts.renames

end SchemaTransfer
