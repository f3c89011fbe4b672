import SchemaTransfer.Proofs.Load.Refusal

/-!
# No line of a statement is passed over

A statement that is taken has had all its lines read, and each of them had its place. The two forms
that set the current schema and the current path are the exception: they leave over the lines
behind the first, whatever these are.
-/
namespace SchemaTransfer.Load
open Dump

namespace Reading

variable {α β : Type}

/-- A reading that does not fail has read all lines. -/
def Exhausts (r : Reading α) : Prop := ∀ left, r.outcome = .ok left → left = []

theorem exhausts_done (value : α) : (done value).Exhausts :=
  fun _ h => (Except.ok.inj h).symm

theorem exhausts_fail (value : α) (failure : Failure) : (fail value failure).Exhausts :=
  fun _ h => by cases h

theorem exhausts_expectEnd (value : α) (statement : String) (number : Nat)
    (lines : List (List Char)) : (expectEnd value statement number lines).Exhausts := by
  unfold expectEnd
  split
  · exact exhausts_done value
  · exact exhausts_fail value _

theorem exhausts_ofExcept (value : α) (result : Except Failure α) :
    (ofExcept value result).Exhausts := by
  cases result with
  | ok a => exact exhausts_done a
  | error failure => exact exhausts_fail value failure

end Reading

open Reading

theorem exhausts_sequence (s : Sequence) (lines : List (List Char)) :
    (SequenceBody.read s lines).Exhausts := by
  induction lines generalizing s with
  | nil => exact exhausts_done s
  | cons line rest ih =>
    rw [SequenceBody.read]
    split
    · exact exhausts_fail s _
    · split
      · exact ih _
      · exact exhausts_fail _ _

theorem exhausts_tablespace (t : Tablespace) (inList : Bool) (lines : List (List Char)) :
    (TablespaceBody.read t inList lines).Exhausts := by
  induction lines generalizing t inList with
  | nil =>
    cases inList with
    | false => exact exhausts_done t
    | true => exact exhausts_fail t _
  | cons line rest ih =>
    obtain ⟨-, cause, hread⟩ | ⟨t', goesOn, -, hread⟩ := tablespace_read_step t inList line
    · rw [hread]
      exact exhausts_fail t (.malformed cause)
    · rw [hread]
      exact ih t' goesOn

theorem exhausts_table (shown : String) (number : Nat) (b : TableBody)
    (lines : List (List Char)) : (TableBody.read shown number b lines).Exhausts := by
  induction lines generalizing b with
  | nil =>
    rw [TableBody.read]
    split
    · exact exhausts_fail b _
    · exact exhausts_done b
  | cons line rest ih =>
    rw [TableBody.read]
    split
    · next b' events _ => exact ih b'
    · next b' events failure _ => exact fun _ h => by cases h

theorem exhausts_alter (context : String) (number : Nat) (t : Table)
    (lines : List (List Char)) : (AlterBody.read context number t lines).Exhausts := by
  unfold AlterBody.read
  split
  · exact exhausts_fail t _
  · split
    · exact exhausts_fail t _
    · exact exhausts_ofExcept t _

theorem exhausts_perform (c : Catalog) (context : Context) (s : Statement) {form : Form}
    (h : overlooks form.kind = false) : (perform c context s form).Exhausts := by
  cases form with
  | ignored => cases h
  | createTablespace name => exact exhausts_tablespace _ _ _
  | createRole name => exact exhausts_expectEnd _ _ _ _
  | commentRole name text =>
    simp only [perform, commentRole]
    split
    · exact exhausts_fail _ _
    · exact exhausts_done _
  | createSchema name owner => exact exhausts_expectEnd _ _ _ _
  | createSequence schema name => exact exhausts_sequence _ _
  | restartSequence schema name value =>
    simp only [perform, restartSequence]
    split
    · exact exhausts_fail _ _
    · split
      · exact exhausts_fail _ _
      · exact exhausts_expectEnd _ _ _ _
  | createTable schema name => exact exhausts_table _ _ _ _
  | alterTable schema name =>
    simp only [perform, alterTable]
    split
    · exact exhausts_fail _ _
    · next t _ => exact exhausts_alter _ _ t _
  | restartIdentity schema owner column value =>
    simp only [perform, restartIdentity]
    split
    · exact exhausts_fail _ _
    · split
      · exact exhausts_fail _ _
      · split
        · exact exhausts_fail _ _
        · exact exhausts_expectEnd _ _ _ _
  | createIndex unique indexSchema name schema owner =>
    simp only [perform, createIndex]
    split
    · exact exhausts_fail _ _
    · exact exhausts_ofExcept _ _
  | commentColumn schema owner column text =>
    simp only [perform, commentColumn]
    split
    · exact exhausts_done _
    · split
      · exact exhausts_fail _ _
      · exact exhausts_done _
  | commentTable schema name text =>
    simp only [perform, commentTable]
    split <;> exact exhausts_done _
  | createDomain schema name base =>
    simp only [perform, createDomain]
    split
    · exact exhausts_fail _ _
    · exact exhausts_expectEnd _ _ _ _
  | setSchema schema => cases h
  | setPath path => cases h
  | createView schema name first => exact exhausts_done _
  | createTrigger schema name first => exact exhausts_done _
  | commentTrigger schema name text =>
    simp only [perform, commentTrigger]
    split
    · exact exhausts_fail _ _
    · exact exhausts_done _
  | createFunction schema name first => exact fun _ h => (Except.ok.inj h).symm

theorem take_outcome (session : Session) (s : Statement) {form : Form}
    (h : Form.ofLine? s.first = some form) : (session.take s).outcome =
      (perform session.catalog session.context s form).outcome := by
  unfold Session.take
  rw [h]

theorem take_eq_of_perform {session : Session} {s t : Statement} {form : Form}
    (hs : Form.ofLine? s.first = some form) (ht : Form.ofLine? t.first = some form)
    (h : perform session.catalog session.context s form =
      perform session.catalog session.context t form) : session.take s = session.take t := by
  unfold Session.take
  rw [hs, ht]
  dsimp only
  rw [h]

/-- The lines of a statement that is taken have all been read and have all had their place, and a
line without a place stops the statement. Three forms are the exception, of which one is ignored on
purpose: they take the statement whatever its lines are and leave all of them over. -/
theorem take_lines (session : Session) (s : Statement) :
    match Form.ofLine? s.first with
    | none => (session.take s).outcome = .error (.unrecognized (.statement s.first s.number))
    | some form =>
      if overlooks form.kind then (session.take s).outcome = .ok s.rest
      else
        (∀ left, (session.take s).outcome = .ok left →
          left = [] ∧ ((Place.ofForm form).after? s.rest).isSome) ∧
        ∀ before line more place, s.rest = before ++ line :: more →
          (Place.ofForm form).after? before = some place → place.next? line = none →
            (∃ cause, (session.take s).outcome = .error (.malformed cause)) ∨
              ∃ failure, (session.take { s with rest := before }).outcome = .error failure ∧
                (session.take s).outcome = .error failure := by
  cases hform : Form.ofLine? s.first with
  | none =>
    dsimp only
    unfold Session.take
    rw [hform]
  | some form =>
    dsimp only
    split
    · next hoverlooks =>
      rw [take_outcome session s hform]
      cases form <;> first | rfl | cases hoverlooks
    · next hlooks =>
      rw [Bool.not_eq_true] at hlooks
      have hkind : form.kind ≠ .setSchema ∧ form.kind ≠ .setPath := by
        constructor <;> intro hset <;> rw [hset] at hlooks <;> cases hlooks
      have hrefuses : ∀ before line more place, s.rest = before ++ line :: more →
          (Place.ofForm form).after? before = some place → place.next? line = none →
            (∃ cause, (session.take s).outcome = .error (.malformed cause)) ∨
              ∃ failure, (session.take { s with rest := before }).outcome = .error failure ∧
                (session.take s).outcome = .error failure := by
        intro before line more place hrest hbefore hline
        have hread := refuses_perform session.catalog session.context s hkind
          before line more place hbefore hline
        rw [← hrest] at hread
        rw [take_outcome session s hform,
          take_outcome session { s with rest := before } hform]
        exact hread
      refine ⟨fun left hleft => ⟨?_, ?_⟩, hrefuses⟩
      · rw [take_outcome session s hform] at hleft
        exact exhausts_perform session.catalog session.context s hlooks left hleft
      · refine Option.isSome_iff_ne_none.2 fun hnone => ?_
        obtain ⟨before, line, more, place, hrest, hbefore, hline⟩ :=
          Place.exists_of_after?_eq_none hnone
        rcases hrefuses before line more place hrest hbefore hline with
          ⟨cause, hfails⟩ | ⟨failure, -, hfails⟩
        · rw [hfails] at hleft
          cases hleft
        · rw [hfails] at hleft
          cases hleft

/-- The statement that follows is lost where the terminator of one that sets the current schema is
missing. -/
theorem setSchema_overlooks : ¬ ∀ (session : Session) (s : Statement) (form : Form)
    (left : List (List Char)), Form.ofLine? s.first = some form → form.kind ≠ .ignored →
      (session.take s).outcome = .ok left → left = [] := by
  intro h
  let s : Statement :=
    ⟨"SET CURRENT SCHEMA = \"A\"".toList, ["CREATE ROLE \"R\"".toList], 1⟩
  have hform : Form.ofLine? s.first = some (.setSchema "A") := by decide +kernel
  have hleft := h {} s (.setSchema "A") s.rest hform (by decide) (take_outcome {} s hform)
  cases hleft

end SchemaTransfer.Load
