import SchemaTransfer.Proofs.Load.Run
import SchemaTransfer.Proofs.Load.WellKept

/-!
# Indexes of a table

A table starts without indexes when it is declared. From then on only the statements that create
an index on it change them.
-/
namespace SchemaTransfer.Load
open Dump

/-- The index that a statement of a form creates on a table. -/
def createdIndex? (schema name : String) (rest : List (List Char)) : Form → Option Index
  | .createIndex unique indexSchema index s n =>
    if s = schema ∧ n = name then
      (IndexBody.read ("CREATE INDEX " ++ TableBody.display indexSchema index) unique indexSchema
        index rest).toOption
    else none
  | _ => none

/-- The index that a statement creates on a table. -/
def indexOn? (schema name : String) (t : Taken) : Option Index :=
  (Form.ofLine? t.statement.first).bind (createdIndex? schema name t.statement.rest)

/-- Whether a statement declares a table. -/
def declares (schema name : String) (t : Taken) : Bool :=
  Form.ofLine? t.statement.first = some (.createTable schema name)

theorem read_indexes (shown : String) (number : Nat) (b : TableBody) (lines : List (List Char)) :
    (TableBody.read shown number b lines).value.table.indexes = b.table.indexes := by
  induction lines generalizing b with
  | nil =>
    rw [TableBody.read]
    split <;> rfl
  | cons line rest ih =>
    rw [TableBody.read]
    cases hstep : TableBody.step shown number b line with
    | mk b' result =>
      obtain ⟨events, failure⟩ := result
      rcases TableBody.step_cases hstep with ⟨heffect, rfl⟩ | ⟨rfl, f, rfl⟩
      · refine (ih b').trans ?_
        cases heffect with
        | order identity identity' clause closes part shape value =>
          dsimp only [TableBody.closeIdentity]
          split <;> rfl
        | _ => rfl
      · rfl

theorem alterEdit_indexes {context : String} {rest : List (List Char)} {t t' : Table}
    (h : alterEdit context rest t = some t') : t'.indexes = t.indexes := by
  obtain ⟨added, hadded⟩ := exists_added context rest
  rw [hadded] at h
  obtain ⟨a, -, rfl⟩ := Option.map_eq_some_iff.1 h
  cases a <;> rfl

/-- A restart sets the start of the identity that the first column of the name has. -/
theorem restartEdit_eq_some {column : String} {value : List Char} {rest : List (List Char)}
    {t t' : Table} (h : restartEdit column value rest t = some t') :
    ∃ identity n, (t.column? column).bind (·.identity) = some identity ∧ integer value = .ok n ∧
      t' = t.modifyColumn column fun k =>
        { k with identity := some { identity with start := some n } } := by
  obtain ⟨identity, hidentity, h⟩ := Option.bind_eq_some_iff.1 h
  obtain ⟨n, hn, h⟩ := Option.bind_eq_some_iff.1 h
  unfold ended at h
  split at h
  · cases h
    exact ⟨identity, n, hidentity, eq_ok_of_toOption hn, rfl⟩
  · cases h

theorem onTable_eq_some {change : Table → Option Table} {r r' : Relation}
    (h : onTable change r = some r') :
    ∃ t t', r.table = some t ∧ change t = some t' ∧ r' = { table := some t' } := by
  obtain ⟨t, ht, h⟩ := Option.bind_eq_some_iff.1 h
  obtain ⟨t', ht', rfl⟩ := Option.map_eq_some_iff.1 h
  exact ⟨t, t', ht, ht', rfl⟩

/-- What is done to a table, other than declaring it, changes its indexes only by creating one. -/
theorem touches_indexes {rest : List (List Char)} {schema name : String} {form : Form}
    {change : Relation → Option Relation} (htouches : Touches rest schema name form change)
    (hform : form ≠ .createTable schema name) {r r' : Relation} (h : change r = some r') :
    match r.table with
    | none => r'.table = none ∧ createdIndex? schema name rest form = none
    | some t => ∃ t', r'.table = some t' ∧ t'.indexes =
        (createdIndex? schema name rest form).elim t.indexes
      fun i => t.indexes.insert i.name i := by
  cases htouches with
  | createTable => exact absurd rfl hform
  | alterTable =>
    obtain ⟨t, t', ht, hchange, rfl⟩ := onTable_eq_some h
    rw [ht]
    exact ⟨t', rfl, alterEdit_indexes hchange⟩
  | restartIdentity column value =>
    obtain ⟨t, t', ht, hchange, rfl⟩ := onTable_eq_some h
    rw [ht]
    obtain ⟨identity, n, -, -, rfl⟩ := restartEdit_eq_some hchange
    exact ⟨_, rfl, rfl⟩
  | createIndex unique indexSchema index =>
    obtain ⟨t, t', ht, hchange, rfl⟩ := onTable_eq_some h
    obtain ⟨i, hi, rfl⟩ := Option.map_eq_some_iff.1 hchange
    have hname : i.name = index := by
      cases hread : IndexBody.read ("CREATE INDEX " ++ TableBody.display indexSchema index) unique
          indexSchema index rest with
      | error failure =>
        rw [hread] at hi
        cases hi
      | ok i' =>
        rw [hread] at hi
        cases hi
        exact (index_wellKept hread).name
    rw [ht]
    refine ⟨_, rfl, ?_⟩
    rw [createdIndex?, if_pos ⟨rfl, rfl⟩, hi, Option.elim_some, hname]
  | commentColumn column text =>
    unfold columnCommentEdit at h
    cases ht : r.table with
    | none =>
      rw [ht] at h
      cases h
      exact ⟨rfl, rfl⟩
    | some t =>
      rw [ht] at h
      obtain ⟨k, -, rfl⟩ := Option.map_eq_some_iff.1 h
      exact ⟨_, rfl, rfl⟩
  | commentTable text =>
    unfold commentEdit at h
    cases ht : r.table with
    | none =>
      rw [ht] at h
      cases h
      exact ⟨rfl, rfl⟩
    | some t =>
      rw [ht] at h
      cases h
      exact ⟨_, rfl, rfl⟩

theorem createdIndex?_of_not_touches {rest : List (List Char)} {schema name : String} {form : Form}
    (h : ∀ change, ¬Touches rest schema name form change) :
    createdIndex? schema name rest form = none := by
  cases form with
  | createIndex unique indexSchema index s n =>
    refine if_neg ?_
    rintro ⟨rfl, rfl⟩
    exact h _ (.createIndex unique indexSchema index)
  | _ => rfl

section

variable {p q : Catalog × Context} {schema name : String}

theorem advance_indexes {x : Taken} (h : advance p x.statement = some q)
    (hdeclares : declares schema name x = false) :
    match p.1.table? schema name with
    | none => q.1.table? schema name = none ∧ indexOn? schema name x = none
    | some t => ∃ t', q.1.table? schema name = some t' ∧
      t'.indexes = (indexOn? schema name x).elim t.indexes fun i => t.indexes.insert i.name i := by
  obtain ⟨form, hform, -, -⟩ := advance_eq_some h
  have hother : form ≠ .createTable schema name := by
    rintro rfl
    rw [declares, hform] at hdeclares
    simp at hdeclares
  rw [p.1.table?_eq_content, q.1.table?_eq_content, indexOn?, hform, Option.bind_some]
  rcases advance_relation hform h schema name with ⟨change, r, htouches, hr, hq⟩ | ⟨hsame, hnot⟩
  · have hindexes := touches_indexes htouches hother hr
    rw [hq]
    cases ht : (p.1.content (.relation schema name)).table with
    | none =>
      rw [ht] at hindexes
      exact ⟨by simp [SchemaPart.update, hindexes.1, ht], hindexes.2⟩
    | some t =>
      rw [ht] at hindexes
      obtain ⟨t', ht', hindexes⟩ := hindexes
      exact ⟨t', by simp [SchemaPart.update, ht'], hindexes⟩
  · rw [hsame, createdIndex?_of_not_touches hnot]
    cases (p.1.content (.relation schema name)).table with
    | none => exact ⟨rfl, rfl⟩
    | some t => exact ⟨t, rfl, rfl⟩

/-- A table that is declared has no indexes. -/
theorem advance_declares {x : Taken} (h : advance p x.statement = some q)
    (hdeclares : declares schema name x = true) :
    ∃ t, q.1.table? schema name = some t ∧ t.indexes = .empty := by
  obtain ⟨form, hform, -, -⟩ := advance_eq_some h
  rw [declares, hform] at hdeclares
  obtain rfl : form = .createTable schema name := by simpa using hdeclares
  rcases advance_relation hform h schema name with ⟨change, r, htouches, hr, hq⟩ | ⟨-, hnot⟩
  · cases htouches
    obtain ⟨b, hb, rfl⟩ := Option.map_eq_some_iff.1 hr
    refine ⟨b.table, by rw [q.1.table?_eq_content, hq]; rfl, ?_⟩
    unfold Reading.result? at hb
    split at hb
    · cases hb
      exact read_indexes _ _ _ _
    · cases hb
  · exact absurd .createTable (hnot _)

theorem load_undeclared {ts : List Taken} (h : load p ts = some q)
    (hdeclares : ∀ x ∈ ts, declares schema name x = false)
    (htable : p.1.table? schema name = none) :
    q.1.table? schema name = none ∧ ts.filterMap (indexOn? schema name) = [] := by
  induction ts generalizing p with
  | nil =>
    cases h
    exact ⟨htable, rfl⟩
  | cons x ts ih =>
    obtain ⟨p', hp', h⟩ := Option.bind_eq_some_iff.1 (load_cons p x ts ▸ h)
    have hstep := advance_indexes hp' (hdeclares x List.mem_cons_self)
    rw [htable] at hstep
    rw [List.filterMap_cons, hstep.2]
    exact ih h (fun y hy => hdeclares y (List.mem_cons_of_mem _ hy)) hstep.1

theorem load_declared {ts : List Taken} (h : load p ts = some q)
    (hdeclares : ∀ x ∈ ts, declares schema name x = false) {t : Table}
    (htable : p.1.table? schema name = some t) :
    ∃ t', q.1.table? schema name = some t' ∧ t'.indexes =
      (ts.filterMap (indexOn? schema name)).foldl (fun is i => is.insert i.name i) t.indexes := by
  induction ts generalizing p t with
  | nil =>
    cases h
    exact ⟨t, htable, rfl⟩
  | cons x ts ih =>
    obtain ⟨p', hp', h⟩ := Option.bind_eq_some_iff.1 (load_cons p x ts ▸ h)
    have hstep := advance_indexes hp' (hdeclares x List.mem_cons_self)
    rw [htable] at hstep
    obtain ⟨t', ht', hindexes⟩ := hstep
    obtain ⟨t'', ht'', hrest⟩ := ih h (fun y hy => hdeclares y (List.mem_cons_of_mem _ hy)) ht'
    refine ⟨t'', ht'', hrest.trans ?_⟩
    rw [hindexes, List.filterMap_cons]
    cases indexOn? schema name x <;> rfl

/-- The indexes that are created on a table; of those with one name the last stays. -/
def indexesOn (schema name : String) (ts : List Taken) : Keyed Index :=
  .ofList ((ts.filterMap (indexOn? schema name)).map fun i => (i.name, i))

/-- The indexes of a table that is declared once. -/
theorem load_indexes {ts : List Taken} (h : load ({}, {}) ts = some q)
    (honce : ts.countP (declares schema name) = 1) :
    ∃ t, q.1.table? schema name = some t ∧ t.indexes = indexesOn schema name ts := by
  obtain ⟨d, hd, hdeclares⟩ := List.countP_pos_iff.1 (honce ▸ Nat.one_pos)
  obtain ⟨before, after, rfl⟩ := List.append_of_mem hd
  rw [List.countP_append, List.countP_cons_of_pos hdeclares] at honce
  have hbefore : ∀ x ∈ before, declares schema name x = false := by
    have hzero : before.countP (declares schema name) = 0 := by omega
    simpa using List.countP_eq_zero.1 hzero
  have hafter : ∀ x ∈ after, declares schema name x = false := by
    have hzero : after.countP (declares schema name) = 0 := by omega
    simpa using List.countP_eq_zero.1 hzero
  rw [load_append] at h
  obtain ⟨p, hp, h⟩ := Option.bind_eq_some_iff.1 h
  obtain ⟨p', hp', h⟩ := Option.bind_eq_some_iff.1 (load_cons p d after ▸ h)
  have hnone := (load_undeclared hp hbefore rfl).2
  obtain ⟨t, ht, hempty⟩ := advance_declares hp' hdeclares
  obtain ⟨t', ht', hindexes⟩ := load_declared h hafter ht
  have hd : indexOn? schema name d = none := by
    unfold declares at hdeclares
    rw [indexOn?, of_decide_eq_true hdeclares]
    rfl
  refine ⟨t', ht', hindexes.trans ?_⟩
  rw [indexesOn, List.filterMap_append, hnone, List.nil_append, List.filterMap_cons, hd, hempty,
    Keyed.ofList, List.foldl_map]

end

end SchemaTransfer.Load
