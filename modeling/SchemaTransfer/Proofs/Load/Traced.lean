import SchemaTransfer.Load.Session
import SchemaTransfer.Proofs.Load.Leftover
import SchemaTransfer.Proofs.Traced

/-!
# Where a statement fails without a text

A numeral or a type that makes a statement fail stands on one of its lines. All other failures of a
statement have a text of their own.
-/
namespace SchemaTransfer.Load
open Dump Reading Scan

variable {lines : List (List Char)}

section
variable {α : Type}

theorem traced_expectEnd (value : α) (statement : String) (number : Nat)
    (left : List (List Char)) : Traced lines (expectEnd value statement number left).outcome := by
  unfold expectEnd
  split
  · exact .ok _
  · exact .malformed _

theorem traced_ofExcept (value : α) {x : Except Failure α} (h : Traced lines x) :
    Traced lines (ofExcept value x).outcome := by
  cases x with
  | ok a => exact .ok _
  | error failure => exact .error (h failure rfl)

end

theorem traced_setTwo {line a b : List Char} (ha : NumeralOn line a) (hb : NumeralOn line b)
    (s : Sequence) (setFirst setSecond : Sequence → Int → Sequence) {s' : Sequence}
    {failure : Failure} (h : SequenceBody.setTwo s a b setFirst setSecond = (s', some failure)) :
    failure.TracedTo [line] := by
  unfold SequenceBody.setTwo at h
  split at h
  · next hfirst =>
    cases h
    exact traced_integer ha _ hfirst
  · split at h
    · next hsecond =>
      cases h
      exact traced_integer hb _ hsecond
    · cases h

theorem traced_set {line : List Char} {clause : SequenceLine}
    (hline : SequenceLine.ofLine? line = some clause) (s : Sequence) {s' : Sequence}
    {failure : Failure} (h : SequenceBody.set s clause = (s', some failure)) :
    failure.TracedTo [line] := by
  have hon := SequenceLine.numeralOn hline
  cases clause with
  | range least greatest =>
    rw [SequenceBody.set] at h
    exact traced_setTwo (hon least (by simp [SequenceLine.numerals]))
      (hon greatest (by simp [SequenceLine.numerals])) s _ _ h
  | start value increment =>
    rw [SequenceBody.set] at h
    exact traced_setTwo (hon value (by simp [SequenceLine.numerals]))
      (hon increment (by simp [SequenceLine.numerals])) s _ _ h
  | cache digits cycle =>
    cases digits with
    | none => cases h
    | some digits =>
      simp only [SequenceBody.set] at h
      split at h
      · next hinteger =>
        cases h
        exact traced_integer (hon digits (by simp [SequenceLine.numerals])) _ hinteger
      · cases h

theorem traced_sequence (s : Sequence) (lines : List (List Char)) :
    Traced lines (SequenceBody.read s lines).outcome := by
  induction lines generalizing s with
  | nil => exact .ok _
  | cons line rest ih =>
    rw [SequenceBody.read]
    split
    · exact .malformed _
    · next clause hline =>
      split
      · exact (ih _).of_tail
      · next s' failure hset =>
        exact .of_mem List.mem_cons_self (.error (traced_set hline s hset))

theorem traced_tablespace (t : Tablespace) (inList : Bool) (left : List (List Char)) :
    Traced lines (TablespaceBody.read t inList left).outcome := by
  induction left generalizing t inList with
  | nil =>
    cases inList with
    | false => exact .ok _
    | true => exact .malformed _
  | cons line rest ih =>
    obtain ⟨-, cause, hread⟩ | ⟨t', goesOn, -, hread⟩ := tablespace_read_step t inList line
    · rw [hread]
      exact .malformed cause
    · rw [hread]
      exact ih t' goesOn

theorem traced_setOption {line : List Char} {clause : IdentityClause}
    (hline : IdentityClause.ofLine? line = some clause) (identity : Identity) :
    Traced [line] (TableBody.setOption identity clause) := by
  have hon := IdentityClause.numeralOn hline
  cases clause with
  | start value | increment value | minValue value | maxValue value =>
    exact (traced_integer (hon value (List.mem_singleton_self value))).map _
  | cycle on => exact .ok _
  | cache digits =>
    cases digits with
    | none => exact .ok _
    | some digits => exact (traced_integer (hon digits (List.mem_singleton_self digits))).map _
  | order on closes => exact .ok _

theorem traced_step (shown : String) (number : Nat) (b : TableBody) (line : List Char)
    {b' : TableBody} {events : List Event} {failure : Failure}
    (h : TableBody.step shown number b line = (b', events, some failure)) :
    failure.TracedTo [line] := by
  have hstorage : TableBody.storageLine shown number b line = (b', events, some failure) →
      failure.TracedTo [line] := by
    intro h
    unfold TableBody.storageLine at h
    split at h
    · cases h
    · cases h
      trivial
  unfold TableBody.step at h
  split at h
  · unfold TableBody.identityLine at h
    split at h
    · cases h
      trivial
    · next clause hline =>
      split at h
      · next hoption =>
        cases h
        exact traced_setOption hline _ _ hoption
      · cases h
      · cases h
  · exact hstorage h
  · split at h
    · next c hline =>
      unfold TableBody.addColumn at h
      split at h
      · cases h
        trivial
      · split at h
        · next hconvert =>
          cases h
          have htraced := TypeName.traced_convert c.type _ hconvert
          exact htraced.of_isInfix (ColumnLine.type_isInfix hline)
        · cases h
    · split at h
      · cases h
      · exact hstorage h

theorem traced_table (shown : String) (number : Nat) (b : TableBody) (lines : List (List Char)) :
    Traced lines (TableBody.read shown number b lines).outcome := by
  induction lines generalizing b with
  | nil =>
    rw [TableBody.read]
    split
    · exact .malformed _
    · exact .ok _
  | cons line rest ih =>
    rw [TableBody.read]
    split
    · exact (ih _).of_tail
    · next b' events failure hstep =>
      exact .of_mem List.mem_cons_self (.error (traced_step shown number b line hstep))

section
variable (context : String) (left : List (List Char))

theorem traced_columnList (directed : Bool) :
    Traced lines (columnList context directed left) := by
  induction left with
  | nil => exact .malformed _
  | cons line rest ih =>
    rw [columnList]
    split
    · exact .malformed _
    · split
      · exact .malformed _
      · split
        · exact .ok _
        · split
          · exact .ok _
          · next hrest => exact .error (ih _ hrest)

theorem traced_nameList : Traced lines (nameList context left) :=
  (traced_columnList context left false).map _

theorem traced_key (number : Nat) (name : Option String) :
    Traced lines (AlterBody.key context number name left) := by
  rw [key_eq]
  refine (traced_nameList context left).bind fun r => ?_
  unfold keyFrom
  split
  · exact .ok _
  · exact .malformed _

theorem traced_trailers (k : ForeignKey) :
    Traced lines (ForeignKeyBody.trailers context k left) := by
  induction left generalizing k with
  | nil => exact .ok _
  | cons line rest ih =>
    rw [ForeignKeyBody.trailers]
    split
    · exact ih _
    · exact .malformed _

theorem traced_foreignKey (name : Option String) :
    Traced lines (ForeignKeyBody.read context name left) := by
  rw [foreignKey_read_eq]
  refine (traced_nameList context left).bind fun r => ?_
  unfold referencesFrom
  split
  · exact .malformed _
  · exact (traced_nameList context _).bind fun q => traced_trailers context q.2 _

theorem traced_check (name : Option String) :
    Traced lines (CheckBody.read context name left) := by
  rw [check_read_eq]
  unfold checkFrom
  split
  · exact .malformed _
  · split
    · exact .malformed _
    · exact .ok _

theorem traced_index (unique : Bool) (indexSchema name : String) :
    Traced lines (IndexBody.read context unique indexSchema name left) := by
  rw [index_read_eq]
  refine (traced_columnList context left true).bind fun r => ?_
  have hincluded : Traced lines (IndexBody.included context r.2) := by
    unfold IndexBody.included
    split
    · exact .ok _
    · split
      · exact traced_nameList _ _
      · exact .ok _
  refine hincluded.bind fun i => ?_
  unfold indexFrom
  split
  · exact .malformed _
  · exact .ok _

theorem traced_extend (number : Nat) (t : Table) (addition : Addition) :
    Traced lines (AlterBody.extend context number t addition left) := by
  cases addition with
  | primaryKey name => exact (traced_key context left number name).map _
  | unique name => exact (traced_key context left number name).map _
  | foreignKey name => exact (traced_foreignKey context left name).map _
  | check name => exact (traced_check context left name).map _

theorem traced_alter (number : Nat) (t : Table) :
    Traced lines (AlterBody.read context number t left).outcome := by
  unfold AlterBody.read
  split
  · exact .malformed _
  · split
    · exact .malformed _
    · exact traced_ofExcept t (traced_extend context _ number t _)

end

/-- A statement fails without a text only for what stands on its lines. -/
theorem traced_perform (c : Catalog) (context : Context) (s : Statement) {form : Form}
    (hform : Form.ofLine? s.first = some form) :
    Traced s.lines (perform c context s form).outcome := by
  have hrest : ∀ x ∈ s.rest, ∃ y ∈ s.lines, x <:+: y :=
    fun x hx => ⟨x, List.mem_cons_of_mem _ hx, List.infix_rfl⟩
  cases form with
  | createTablespace name => exact traced_tablespace _ _ _
  | createRole name => exact traced_expectEnd _ _ _ _
  | commentRole name text =>
    simp only [perform, commentRole]
    split
    · exact .unrecognized _
    · exact .ok _
  | createSchema name owner => exact traced_expectEnd _ _ _ _
  | createSequence schema name => exact (traced_sequence _ _).mono hrest
  | restartSequence schema name value =>
    simp only [perform, restartSequence]
    split
    · exact .unrecognized _
    · split
      · next hinteger =>
        exact .error (Traced.of_mem List.mem_cons_self
          (traced_integer (numeralOn_of_restartSequence hform)) _ hinteger)
      · exact traced_expectEnd _ _ _ _
  | createTable schema name => exact (traced_table _ _ _ _).mono hrest
  | alterTable schema name =>
    simp only [perform, alterTable]
    split
    · exact .unrecognized _
    · exact traced_alter _ _ _ _
  | restartIdentity schema owner column value =>
    simp only [perform, restartIdentity]
    split
    · exact .unrecognized _
    · split
      · exact .unrecognized _
      · split
        · next hinteger =>
          exact .error (Traced.of_mem List.mem_cons_self
            (traced_integer (numeralOn_of_restartIdentity hform)) _ hinteger)
        · exact traced_expectEnd _ _ _ _
  | createIndex unique indexSchema name schema owner =>
    simp only [perform, createIndex]
    split
    · exact .unrecognized _
    · exact traced_ofExcept _ ((traced_index _ _ _ _ _).map _)
  | commentColumn schema owner column text =>
    simp only [perform, commentColumn]
    split
    · exact .ok _
    · split
      · exact .unrecognized _
      · exact .ok _
  | commentTable schema name text =>
    simp only [perform, commentTable]
    split <;> exact .ok _
  | createDomain schema name base =>
    simp only [perform, createDomain]
    split
    · next hconvert =>
      have hbase := (TypeName.traced_convert _ _ hconvert).of_unquoted
      exact .of_mem List.mem_cons_self
        (.error (hbase.of_isInfix (base_isInfix_of_createDomain hform)))
    · exact traced_expectEnd _ _ _ _
  | commentTrigger schema name text =>
    simp only [perform, commentTrigger]
    split
    · exact .unrecognized _
    · exact .ok _
  | _ => exact .ok _

theorem traced_take (session : Session) (s : Statement) :
    Traced s.lines (session.take s).outcome := by
  cases hform : Form.ofLine? s.first with
  | none =>
    unfold Session.take
    rw [hform]
    exact .unrecognized _
  | some form =>
    rw [take_outcome session s hform]
    exact traced_perform _ _ s hform

/-- A run fails with one of its statements. -/
theorem traced_takeAll (session : Session) (ts : List Taken) {failure : Failure}
    (h : (session.takeAll ts).2.2 = some failure) :
    failure.TracedTo (ts.flatMap (·.statement.lines)) := by
  induction ts generalizing session with
  | nil => cases h
  | cons t ts ih =>
    rw [List.flatMap_cons]
    rw [Session.takeAll] at h
    dsimp only at h
    split at h
    · next failure' houtcome =>
      obtain rfl : failure' = failure := Option.some.inj h
      exact (traced_take session t.statement _ houtcome).mono
        fun x hx => ⟨x, List.mem_append_left _ hx, List.infix_rfl⟩
    · exact (ih _ h).mono fun x hx => ⟨x, List.mem_append_right _ hx, List.infix_rfl⟩

end SchemaTransfer.Load
