import SchemaTransfer.Proofs.Load.Columns
import SchemaTransfer.Proofs.Load.Context

/-!
# Starts and minimums

A sequence or an identity that is declared to start at its minimum or above it goes on to do so. The
restart of a sequence is kept apart from its start. That of an identity replaces the start, whatever
the minimum is.
-/
namespace SchemaTransfer

/-- A value and a minimum, if both are given, stand in order. -/
def NotBelow (value least : Option Int) : Prop := ∀ n ∈ value, ∀ m ∈ least, m ≤ n

instance (value least : Option Int) : Decidable (NotBelow value least) :=
  inferInstanceAs (Decidable (∀ n ∈ value, ∀ m ∈ least, m ≤ n))

theorem Sequence.notBelow_resolvedRestart (q : Sequence) :
    NotBelow q.resolvedRestart q.minValue := by
  intro n hn m hm
  unfold resolvedRestart at hn
  split at hn
  · next restart least hrestart hleast =>
    rw [hleast] at hm
    cases hn
    cases hm
    split <;> omega
  · next hnone =>
    cases hrestart : q.restartWith with
    | none =>
      rw [hrestart] at hn
      cases hn
    | some restart => exact absurd hm (hnone restart m hrestart)

/-- The columns of a table with their identities. -/
def Table.identities (t : Table) : List (String × Option Identity) :=
  t.columns.map fun c => (c.name, c.identity)

/-- The columns of a table with their identities, if there is one. -/
def Catalog.identities (c : Catalog) (schema name : String) : List (String × Option Identity) :=
  ((c.table? schema name).map Table.identities).getD []

namespace Load
open Dump

/-- Sets the start of the identity of the first column of a name. -/
def restartFirst (column : String) (n : Int) :
    List (String × Option Identity) → List (String × Option Identity)
  | [] => []
  | e :: es =>
    if e.1 = column then (e.1, e.2.map fun i => { i with start := some n }) :: es
    else e :: restartFirst column n es

section

variable {column : String} {n : Int} {es : List (String × Option Identity)}

theorem identities_restart {t : Table} {i : Identity}
    (h : (t.column? column).bind (·.identity) = some i) :
    (t.modifyColumn column fun k =>
      { k with identity := some { i with start := some n } }).identities =
        restartFirst column n t.identities := by
  unfold Table.column? at h
  unfold Table.identities Table.modifyColumn
  dsimp only
  generalize t.columns = cs at h ⊢
  induction cs with
  | nil => cases h
  | cons c cs ih =>
    rw [Table.modifyNamed, List.map_cons, restartFirst]
    by_cases hc : c.name = column
    · rw [List.find?_cons_of_pos (by simpa using hc), Option.bind_some] at h
      rw [if_pos hc, if_pos hc, List.map_cons, h]
      rfl
    · rw [List.find?_cons_of_neg (by simpa using hc)] at h
      rw [if_neg hc, if_neg hc, List.map_cons, ih h]

theorem mem_restartFirst_of_ne {e : String × Option Identity} (h : e ∈ es) (hne : e.1 ≠ column) :
    e ∈ restartFirst column n es := by
  induction es with
  | nil => cases h
  | cons d es ih =>
    rw [restartFirst]
    rcases List.mem_cons.1 h with rfl | h
    · rw [if_neg hne]
      exact List.mem_cons_self
    · split
      · exact List.mem_cons_of_mem _ h
      · exact List.mem_cons_of_mem _ (ih h)

theorem exists_mem_restartFirst {t : Table} {i : Identity}
    (h : (t.column? column).bind (·.identity) = some i) :
    (column, some { i with start := some n }) ∈ restartFirst column n t.identities := by
  unfold Table.column? at h
  unfold Table.identities
  generalize t.columns = cs at h ⊢
  induction cs with
  | nil => cases h
  | cons c cs ih =>
    rw [List.map_cons, restartFirst]
    by_cases hc : c.name = column
    · rw [List.find?_cons_of_pos (by simpa using hc), Option.bind_some] at h
      rw [if_pos hc, hc, h]
      exact List.mem_cons_self
    · rw [List.find?_cons_of_neg (by simpa using hc)] at h
      rw [if_neg hc]
      exact List.mem_cons_of_mem _ (ih h)

/-- Each identity starts at its minimum or above it, or with the value of the last restart of its
column. Only the first column of a name is restarted. -/
def StartsKept (last : String → Option Int) : List (String × Option Identity) → Prop
  | [] => True
  | e :: es =>
    (∀ i ∈ e.2, NotBelow i.start i.minValue ∨ ∃ n, last e.1 = some n ∧ i.start = some n) ∧
      StartsKept (Function.update last e.1 none) es

theorem startsKept_of_declared {last : String → Option Int}
    (h : ∀ e ∈ es, ∀ i ∈ e.2, NotBelow i.start i.minValue) : StartsKept last es := by
  induction es generalizing last with
  | nil => trivial
  | cons e es ih =>
    obtain ⟨he, hes⟩ := List.forall_mem_cons.1 h
    exact ⟨fun i hi => .inl (he i hi), ih hes⟩

theorem StartsKept.restart {last : String → Option Int} (h : StartsKept last es) :
    StartsKept (Function.update last column (some n)) (restartFirst column n es) := by
  induction es generalizing last with
  | nil => trivial
  | cons e es ih =>
    obtain ⟨he, hes⟩ := h
    rw [restartFirst]
    split
    · next hname =>
      subst hname
      refine ⟨fun i hi => .inr ⟨n, Function.update_self _ _ _, ?_⟩, ?_⟩
      · obtain ⟨j, -, rfl⟩ := Option.map_eq_some_iff.1 hi
        rfl
      -- Behind the first column of a name nothing counts as restarted, before as after.
      · dsimp only
        rwa [Function.update_idem]
    · next hname =>
      refine ⟨fun i hi => ?_, ?_⟩
      · rw [Function.update_of_ne hname]
        exact he i hi
      · rw [Function.update_comm (Ne.symm hname)]
        exact ih hes

theorem StartsKept.of_mem {last : String → Option Int} (h : StartsKept last es)
    {e : String × Option Identity} (he : e ∈ es) {i : Identity} (hi : e.2 = some i) :
    NotBelow i.start i.minValue ∨ ∃ n, last e.1 = some n ∧ i.start = some n := by
  induction es generalizing last with
  | nil => cases he
  | cons d es ih =>
    obtain ⟨hd, hes⟩ := h
    rcases List.mem_cons.1 he with rfl | he
    · exact hd i hi
    · refine (ih hes he).imp_right fun ⟨n, hn, hstart⟩ => ⟨n, ?_, hstart⟩
      by_cases hname : e.1 = d.1
      · rw [hname, Function.update_self] at hn
        cases hn
      · rwa [Function.update_of_ne hname] at hn

/-- What restarts have made of the identities of a table: no other start is below its minimum, and
the last value for a column is there. -/
structure Restarted (last : String → Option Int) (es : List (String × Option Identity)) : Prop where
  starts : StartsKept last es
  written : ∀ column n, last column = some n →
    ∃ i : Identity, (column, some i) ∈ es ∧ i.start = some n

theorem restarted_of_declared (h : ∀ e ∈ es, ∀ i ∈ e.2, NotBelow i.start i.minValue) :
    Restarted (fun _ => none) es :=
  ⟨startsKept_of_declared h, fun _ _ hlast => nomatch hlast⟩

theorem Restarted.restart {last : String → Option Int} {t : Table}
    (h : Restarted last t.identities) {i : Identity}
    (hi : (t.column? column).bind (·.identity) = some i) :
    Restarted (Function.update last column (some n)) (restartFirst column n t.identities) := by
  refine ⟨h.starts.restart, fun other m hm => ?_⟩
  by_cases hother : other = column
  · subst hother
    rw [Function.update_self] at hm
    cases hm
    exact ⟨_, exists_mem_restartFirst hi, rfl⟩
  · rw [Function.update_of_ne hother] at hm
    obtain ⟨j, hj, hstart⟩ := h.written other m hm
    exact ⟨j, mem_restartFirst_of_ne hj hother, hstart⟩

end

/-- The columns that a statement declares a table with, with their identities. -/
def declaredIdentities (schema name : String) (t : Taken) : List (String × Option Identity) :=
  (TableBody.read (TableBody.display schema name) t.statement.number { table := { name } }
    t.statement.rest).value.table.identities

/-- Takes down what a statement restarts the identities of a table with. One that declares the table
leaves nothing of that. -/
def noteRestart (schema name : String) (last : String → Option Int) (t : Taken) :
    String → Option Int :=
  match Form.ofLine? t.statement.first with
  | some (.createTable s n) => if s = schema ∧ n = name then fun _ => none else last
  | some (.restartIdentity s n column value) =>
    if s = schema ∧ n = name then Function.update last column (integer value).toOption else last
  | _ => last

/-- What the identity of a column was last restarted with, since its table was last declared. -/
def lastRestart (schema name column : String) (ts : List Taken) : Option Int :=
  ts.foldl (noteRestart schema name) (fun _ => none) column

section

variable {schema name : String} {last : String → Option Int} {p q : Catalog × Context} {t : Taken}

theorem noteRestart_of_ne {form : Form} (hform : Form.ofLine? t.statement.first = some form)
    (hcreate : form ≠ .createTable schema name)
    (hrestart : ∀ column value, form ≠ .restartIdentity schema name column value) :
    noteRestart schema name last t = last := by
  rw [noteRestart, hform]
  cases form with
  | createTable s n =>
    exact if_neg fun ⟨hs, hn⟩ => hcreate (by rw [hs, hn])
  | restartIdentity s n column value =>
    exact if_neg fun ⟨hs, hn⟩ => hrestart column value (by rw [hs, hn])
  | _ => rfl

theorem advance_createTable
    (hform : Form.ofLine? t.statement.first = some (.createTable schema name))
    (h : advance p t.statement = some q) :
    q.1.identities schema name = declaredIdentities schema name t := by
  rcases advance_relation hform h schema name with ⟨change, r, htouches, hr, hq⟩ | ⟨-, hnot⟩
  · cases htouches
    rw [table_read_number _ 0 t.statement.number] at hr
    obtain ⟨b, hb, rfl⟩ := Option.map_eq_some_iff.1 hr
    rw [Catalog.identities, q.1.table?_eq_content, hq, declaredIdentities, value_of_result? hb]
    rfl
  · exact absurd .createTable (hnot _)

theorem advance_restartIdentity {column : String} {value : List Char}
    (hform : Form.ofLine? t.statement.first =
      some (.restartIdentity schema name column value))
    (h : advance p t.statement = some q) :
    ∃ (table : Table) (i : Identity) (n : Int),
      p.1.identities schema name = table.identities ∧
      (table.column? column).bind (·.identity) = some i ∧ integer value = .ok n ∧
      q.1.identities schema name = restartFirst column n table.identities := by
  rcases advance_relation hform h schema name with ⟨change, r, htouches, hr, hq⟩ | ⟨-, hnot⟩
  · cases htouches
    obtain ⟨table, table', htable, hchange, rfl⟩ := onTable_eq_some hr
    obtain ⟨i, n, hi, hn, rfl⟩ := restartEdit_eq_some hchange
    refine ⟨table, i, n, ?_, hi, hn, ?_⟩
    · rw [Catalog.identities, p.1.table?_eq_content, htable]
      rfl
    · rw [Catalog.identities, q.1.table?_eq_content, hq, ← identities_restart hi]
      rfl
  · exact absurd (.restartIdentity column value) (hnot _)

theorem advance_identities {form : Form} (hform : Form.ofLine? t.statement.first = some form)
    (hcreate : form ≠ .createTable schema name)
    (hrestart : ∀ column value, form ≠ .restartIdentity schema name column value)
    (h : advance p t.statement = some q) :
    q.1.identities schema name = p.1.identities schema name := by
  unfold Catalog.identities
  rw [p.1.table?_eq_content, q.1.table?_eq_content]
  rcases advance_relation hform h schema name with ⟨change, r, htouches, hr, hq⟩ | ⟨hsame, -⟩
  · rw [hq]
    exact congrArg (Option.getD · []) (touches_columns htouches hcreate (fun _ _ => rfl)
      (fun column value hsame => absurd hsame (hrestart column value)) hr)
  · rw [hsame]

/-- What a statement makes of the identities of a table: it declares them, or it restarts one of
them, or it leaves them as they are. -/
theorem advance_restarted (h : advance p t.statement = some q)
    (hdeclared : declares schema name t = true →
      ∀ e ∈ declaredIdentities schema name t, ∀ i ∈ e.2, NotBelow i.start i.minValue)
    (hp : Restarted last (p.1.identities schema name)) :
    Restarted (noteRestart schema name last t) (q.1.identities schema name) := by
  obtain ⟨form, hform, -, -⟩ := advance_eq_some h
  by_cases hcreate : form = .createTable schema name
  · subst hcreate
    rw [noteRestart, hform, advance_createTable hform h]
    dsimp only
    rw [if_pos ⟨rfl, rfl⟩]
    exact restarted_of_declared (hdeclared (by rw [declares, hform]; simp))
  · by_cases hrestart : ∃ column value, form = .restartIdentity schema name column value
    · obtain ⟨column, value, rfl⟩ := hrestart
      obtain ⟨table, i, n, hbefore, hi, hn, hafter⟩ := advance_restartIdentity hform h
      rw [noteRestart, hform, hafter]
      dsimp only
      rw [if_pos ⟨rfl, rfl⟩, hn]
      exact (hbefore ▸ hp).restart hi
    · have hother (column : String) (value : List Char) :
          form ≠ .restartIdentity schema name column value :=
        fun hsame => hrestart ⟨column, value, hsame⟩
      rwa [noteRestart_of_ne hform hcreate hother, advance_identities hform hcreate hother h]

theorem load_restarted (schema name : String) {ts : List Taken} (h : load ({}, {}) ts = some q)
    (hdeclared : ∀ t ∈ ts, declares schema name t = true →
      ∀ e ∈ declaredIdentities schema name t, ∀ i ∈ e.2, NotBelow i.start i.minValue) :
    Restarted (fun column => lastRestart schema name column ts) (q.1.identities schema name) := by
  unfold lastRestart
  refine load_induction (motive := fun ts q =>
    (∀ t ∈ ts, declares schema name t = true →
      ∀ e ∈ declaredIdentities schema name t, ∀ i ∈ e.2, NotBelow i.start i.minValue) →
    Restarted (ts.foldl (noteRestart schema name) fun _ => none) (q.1.identities schema name))
    (fun _ => restarted_of_declared (List.forall_mem_nil _)) ?_ h hdeclared
  intro ts t p q _ hp hq hdeclared
  obtain ⟨hbefore, hlast⟩ := List.forall_mem_append.1 hdeclared
  rw [List.foldl_concat]
  exact advance_restarted hq (List.forall_mem_singleton.1 hlast) (hp hbefore)

end

/-- A sequence without its restart, which a statement of its own adds. -/
def unrestarted (q : Sequence) : Sequence := { q with restartWith := none }

/-- What is declared of a sequence once a statement is read. -/
def declareSequence (schema name : String) (q : Option Sequence) (t : Taken) : Option Sequence :=
  if Form.ofLine? t.statement.first = some (.createSequence schema name) then
    some (SequenceBody.read (q.getD { name }) t.statement.rest).value
  else q

/-- The sequence that the statements create. Where there are several, a later one leaves what it
does not set. -/
def declaredSequence (schema name : String) (ts : List Taken) : Option Sequence :=
  ts.foldl (declareSequence schema name) none

theorem setTwo_unrestarted (q : Sequence) (a b : List Char) {f g : Sequence → Int → Sequence}
    (hf : ∀ q n, f (unrestarted q) n = unrestarted (f q n))
    (hg : ∀ q n, g (unrestarted q) n = unrestarted (g q n)) :
    SequenceBody.setTwo (unrestarted q) a b f g =
      (unrestarted (SequenceBody.setTwo q a b f g).1, (SequenceBody.setTwo q a b f g).2) := by
  unfold SequenceBody.setTwo
  cases integer a with
  | error failure => rfl
  | ok m =>
    cases integer b with
    | error failure =>
      dsimp only
      rw [hf]
    | ok n =>
      dsimp only
      rw [hf, hg]

theorem set_unrestarted (q : Sequence) (clause : SequenceLine) :
    SequenceBody.set (unrestarted q) clause =
      (unrestarted (SequenceBody.set q clause).1, (SequenceBody.set q clause).2) := by
  cases clause with
  | range least greatest =>
    unfold SequenceBody.set
    exact setTwo_unrestarted q least greatest (fun _ _ => rfl) fun _ _ => rfl
  | start value increment =>
    unfold SequenceBody.set
    exact setTwo_unrestarted q value increment (fun _ _ => rfl) fun _ _ => rfl
  | cache digits cycle =>
    cases digits with
    | none => rfl
    | some digits =>
      unfold SequenceBody.set
      dsimp only
      cases integer digits <;> rfl

theorem read_unrestarted (q : Sequence) (lines : List (List Char)) :
    (SequenceBody.read (unrestarted q) lines).value =
      unrestarted (SequenceBody.read q lines).value := by
  induction lines generalizing q with
  | nil => rfl
  | cons line rest ih =>
    rw [SequenceBody.read, SequenceBody.read]
    cases SequenceLine.ofLine? line with
    | none => rfl
    | some clause =>
      dsimp only
      rw [set_unrestarted]
      obtain ⟨q', failure⟩ := SequenceBody.set q clause
      cases failure with
      | none => exact ih q'
      | some failure => rfl

section

variable {schema name : String} {p q : Catalog × Context} {t : Taken}

theorem sequence_mem_edits {context : Context} {rest : List (List Char)} {form : Form}
    (h : .part schema (.sequence name) ∈ (edits context rest form).map Edit.object) :
    form = .createSequence schema name ∨ ∃ value, form = .restartSequence schema name value := by
  cases form with
  | createSequence s n =>
    obtain ⟨rfl, rfl⟩ : schema = s ∧ name = n := by simpa [edits] using h
    exact .inl rfl
  | restartSequence s n value =>
    obtain ⟨rfl, rfl⟩ : schema = s ∧ name = n := by simpa [edits] using h
    exact .inr ⟨value, rfl⟩
  | createSchema other owner =>
    rw [edits] at h
    cases hgiven : given owner <;> simp [hgiven, createSchemaEdits] at h
  | _ => simp [edits] at h

theorem advance_sequence (h : advance p t.statement = some q) :
    ((q.1.schema schema).sequences.get? name).map unrestarted =
      declareSequence schema name (((p.1.schema schema).sequences.get? name).map unrestarted)
        t := by
  obtain ⟨form, hform, -, hedits⟩ := advance_eq_some h
  unfold declareSequence
  rw [hform]
  by_cases hmem : .part schema (.sequence name) ∈ (edits p.2 t.statement.rest form).map Edit.object
  · obtain rfl | ⟨value, rfl⟩ := sequence_mem_edits hmem
    · obtain ⟨new, hnew, hcontent⟩ := content_advance hform rfl h
      obtain ⟨r, hr, rfl⟩ := Option.map_eq_some_iff.1 hnew
      have hget : (q.1.schema schema).sequences.get? name = some r := hcontent
      have hold : (((p.1.schema schema).sequences.get? name).map unrestarted).getD { name } =
          unrestarted (((p.1.schema schema).sequences.get? name).getD { name }) := by
        cases (p.1.schema schema).sequences.get? name <;> rfl
      rw [if_pos rfl, hold, read_unrestarted, hget, ← value_of_result? hr]
      rfl
    · obtain ⟨new, hnew, hcontent⟩ := content_advance hform rfl h
      obtain ⟨old, hold, hnew⟩ := Option.bind_eq_some_iff.1 hnew
      obtain ⟨n, -, hnew⟩ := Option.bind_eq_some_iff.1 hnew
      unfold ended at hnew
      split at hnew
      · cases hnew
        have hget : (q.1.schema schema).sequences.get? name =
            some { old with restartWith := some n } := hcontent
        have hold : (p.1.schema schema).sequences.get? name = some old := hold
        rw [if_neg (by simp), hget, hold]
        rfl
      · cases hnew
  · have hsame : (q.1.schema schema).sequences.get? name =
        (p.1.schema schema).sequences.get? name :=
      Catalog.content_editAll hedits (x := .part schema (.sequence name)) hmem
    have hother : some form ≠ some (.createSequence schema name) := by
      intro hform
      cases hform
      exact hmem (by simp [edits])
    rw [hsame, if_neg hother]

theorem load_sequence (schema name : String) {ts : List Taken} (h : load ({}, {}) ts = some q) :
    ((q.1.schema schema).sequences.get? name).map unrestarted =
      declaredSequence schema name ts := by
  refine load_induction (motive := fun ts q =>
    ((q.1.schema schema).sequences.get? name).map unrestarted =
      declaredSequence schema name ts) rfl ?_ h
  intro ts t p q _ hp hq
  rw [advance_sequence hq, hp, declaredSequence, declaredSequence, List.foldl_concat]

end

/-- The starts that a statement declares, each with its minimum. -/
def declaredStarts (ts : List Taken) (t : Taken) : List (Option Int × Option Int) :=
  match Form.ofLine? t.statement.first with
  | some (.createSequence schema name) =>
    (declaredSequence schema name ts).toList.map fun q => (q.start, q.minValue)
  | some (.createTable schema name) =>
    ((declaredIdentities schema name t).filterMap (·.2)).map fun i => (i.start, i.minValue)
  | _ => []

/-- No start is declared below its minimum. -/
def DeclaredInRange (ts : List Taken) : Prop :=
  ∀ t ∈ ts, ∀ d ∈ declaredStarts ts t, NotBelow d.1 d.2

instance (ts : List Taken) : Decidable (DeclaredInRange ts) :=
  inferInstanceAs (Decidable (∀ t ∈ ts, ∀ d ∈ declaredStarts ts t, NotBelow d.1 d.2))

section

variable {schema name : String} {ts : List Taken}

theorem exists_createSequence {q : Sequence} (h : declaredSequence schema name ts = some q) :
    ∃ t ∈ ts, Form.ofLine? t.statement.first = some (.createSequence schema name) := by
  by_contra hnone
  push Not at hnone
  have hfold : ts.foldl (declareSequence schema name) none = none := by
    clear h
    induction ts with
    | nil => rfl
    | cons t ts ih =>
      obtain ⟨ht, hts⟩ := List.forall_mem_cons.1 hnone
      rw [List.foldl_cons, declareSequence, if_neg ht]
      exact ih hts
  rw [declaredSequence, hfold] at h
  cases h

theorem DeclaredInRange.sequence (h : DeclaredInRange ts) {q : Sequence}
    (hq : declaredSequence schema name ts = some q) : NotBelow q.start q.minValue := by
  obtain ⟨t, ht, hform⟩ := exists_createSequence hq
  refine h t ht (q.start, q.minValue) ?_
  rw [declaredStarts, hform]
  dsimp only
  rw [hq]
  exact List.mem_singleton_self _

theorem DeclaredInRange.identity (h : DeclaredInRange ts) :
    ∀ t ∈ ts, declares schema name t = true →
      ∀ e ∈ declaredIdentities schema name t, ∀ i ∈ e.2, NotBelow i.start i.minValue := by
  intro t ht hdeclares e he i hi
  refine h t ht (i.start, i.minValue) ?_
  rw [declaredStarts, of_decide_eq_true hdeclares]
  exact List.mem_map_of_mem (List.mem_filterMap.2 ⟨e, he, hi⟩)

end

end Load

end SchemaTransfer
