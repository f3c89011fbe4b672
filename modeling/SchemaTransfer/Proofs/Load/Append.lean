import SchemaTransfer.Proofs.Load.Down

/-!
# Dumps one behind the other

A dump that leaves no statement open can be taken together with another one behind it, or each by
itself. Between two statements the reader remembers nothing but the number of lines it has read,
and the session nothing but what it is.
-/
namespace SchemaTransfer.Load
open Dump

variable {session : Session}

/-- The statements up to the first that fails, each with what it does. -/
def Session.steps (session : Session) : List Taken → List (Taken × Step)
  | [] => []
  | t :: rest =>
    let step := session.take t.statement
    match step.outcome with
    | .error _ => [(t, step)]
    | .ok _ => (t, step) :: step.session.steps rest

theorem takeAll_cons_of_ok {t : Taken} {left : List (List Char)}
    (h : (session.take t.statement).outcome = .ok left) (rest : List Taken) :
    session.takeAll (t :: rest) =
      (((session.take t.statement).session.takeAll rest).1,
        readNotices t ++ (session.take t.statement).notices ++
          ((session.take t.statement).session.takeAll rest).2.1,
        ((session.take t.statement).session.takeAll rest).2.2) := by
  rw [Session.takeAll]
  dsimp only
  rw [h]

theorem takeAll_cons_of_error {t : Taken} {failure : Failure}
    (h : (session.take t.statement).outcome = .error failure) (rest : List Taken) :
    session.takeAll (t :: rest) =
      ((session.take t.statement).session,
        readNotices t ++ (session.take t.statement).notices, some failure) := by
  rw [Session.takeAll]
  dsimp only
  rw [h]

theorem steps_cons_of_ok {t : Taken} {left : List (List Char)}
    (h : (session.take t.statement).outcome = .ok left) (rest : List Taken) :
    session.steps (t :: rest) =
      (t, session.take t.statement) :: (session.take t.statement).session.steps rest := by
  rw [Session.steps, h]

theorem steps_cons_of_error {t : Taken} {failure : Failure}
    (h : (session.take t.statement).outcome = .error failure) (rest : List Taken) :
    session.steps (t :: rest) = [(t, session.take t.statement)] := by
  rw [Session.steps, h]

/-- Statements that do not fail can be taken ahead of others. -/
theorem takeAll_append {ts : List Taken} (h : (session.takeAll ts).2.2 = none) (us : List Taken) :
    session.takeAll (ts ++ us) =
        (((session.takeAll ts).1.takeAll us).1,
          (session.takeAll ts).2.1 ++ ((session.takeAll ts).1.takeAll us).2.1,
          ((session.takeAll ts).1.takeAll us).2.2) ∧
      session.steps (ts ++ us) = session.steps ts ++ (session.takeAll ts).1.steps us := by
  induction ts generalizing session with
  | nil => exact ⟨rfl, rfl⟩
  | cons t ts ih =>
    rw [List.cons_append]
    cases hstep : (session.take t.statement).outcome with
    | error failure =>
      rw [takeAll_cons_of_error hstep] at h
      cases h
    | ok left =>
      rw [takeAll_cons_of_ok hstep] at h
      obtain ⟨htake, hsteps⟩ := ih h
      constructor
      · rw [takeAll_cons_of_ok hstep, takeAll_cons_of_ok hstep, htake]
        simp only [List.append_assoc]
      · rw [steps_cons_of_ok hstep, steps_cons_of_ok hstep, takeAll_cons_of_ok hstep, hsteps,
          List.cons_append]

/-- Further down, statements do the same and fail for the same reason. -/
theorem takeAll_down (k : Nat) (session : Session) (ts : List Taken) :
    session.takeAll (ts.map (Taken.down k)) =
        ((session.takeAll ts).1, (session.takeAll ts).2.1.map (Notice.down k),
          (session.takeAll ts).2.2.map (Failure.down k)) ∧
      session.steps (ts.map (Taken.down k)) =
        (session.steps ts).map (Prod.map (Taken.down k) (Step.down k)) := by
  induction ts generalizing session with
  | nil => exact ⟨rfl, rfl⟩
  | cons t ts ih =>
    have htake : session.take (t.down k).statement = (session.take t.statement).down k :=
      take_down k session t.statement
    have houtcome : (session.take (t.down k).statement).outcome =
        (session.take t.statement).outcome.mapError (Failure.down k) := by rw [htake]; rfl
    rw [List.map_cons]
    cases hstep : (session.take t.statement).outcome with
    | error failure =>
      rw [hstep] at houtcome
      constructor
      · rw [takeAll_cons_of_error houtcome, takeAll_cons_of_error hstep, htake, readNotices_down]
        simp [Step.down]
      · rw [steps_cons_of_error houtcome, steps_cons_of_error hstep, htake]
        rfl
    | ok left =>
      rw [hstep] at houtcome
      obtain ⟨hall, hsteps⟩ := ih (session.take t.statement).session
      constructor
      · rw [takeAll_cons_of_ok houtcome, takeAll_cons_of_ok hstep, htake, readNotices_down]
        dsimp only [Step.down]
        rw [hall]
        simp only [List.map_append]
      · rw [steps_cons_of_ok houtcome, steps_cons_of_ok hstep, htake]
        dsimp only [Step.down]
        rw [hsteps]
        rfl

/-- Taking one dump behind another is taking first the one and then, with the same session, the
other. Only the numbers of its lines are larger, by as many lines as the first dump has. -/
theorem takeAll_statements_append {xs : List (List Char)} (hends : Ends xs)
    (hfirst : (session.takeAll (statements xs)).2.2 = none) (ys : List (List Char)) :
    let first := session.takeAll (statements xs)
    let second := first.1.takeAll (statements ys)
    let whole := session.takeAll (statements (xs ++ ys))
    statements (xs ++ ys) = statements xs ++ (statements ys).map (Taken.down xs.length) ∧
      session.steps (statements (xs ++ ys)) =
        session.steps (statements xs) ++
          (first.1.steps (statements ys)).map
            (Prod.map (Taken.down xs.length) (Step.down xs.length)) ∧
      whole.1 = second.1 ∧
      whole.2.1 = first.2.1 ++ second.2.1.map (Notice.down xs.length) ∧
      warnings whole.2.1 = warnings first.2.1 ++ warnings second.2.1 ∧
      whole.2.2 = second.2.2.map (Failure.down xs.length) := by
  intro first second whole
  have hstatements := statements_append hends ys
  obtain ⟨hall, hsteps⟩ := takeAll_append hfirst ((statements ys).map (Taken.down xs.length))
  obtain ⟨hdown, hstepsDown⟩ := takeAll_down xs.length first.1 (statements ys)
  have hwhole : whole = (second.1, first.2.1 ++ second.2.1.map (Notice.down xs.length),
      second.2.2.map (Failure.down xs.length)) := by
    show session.takeAll (statements (xs ++ ys)) = _
    rw [hstatements, hall, hdown]
  refine ⟨hstatements, ?_, ?_, ?_, ?_, ?_⟩
  · rw [hstatements, hsteps, hstepsDown]
  · rw [hwhole]
  · rw [hwhole]
  · rw [hwhole, warnings_append, warnings_down]
  · rw [hwhole]

/-- A function whose body holds semicolons of its own, followed by a blank line. -/
def withBody : List (List Char) :=
  ["CREATE FUNCTION \"S\".\"F\" ()".toList,
   "BEGIN ATOMIC".toList,
   "  SET X = 1;".toList,
   "END;".toList,
   "".toList]

/-- A role, and a comment on one that is not declared. -/
def roleComment : List (List Char) :=
  ["CREATE ROLE \"P-Q\";".toList,
   "COMMENT ON ROLE \"R\" IS 'x';".toList]

theorem takeAll_withBody_append :
    let second := (({} : Session).takeAll (statements withBody)).1.takeAll (statements roleComment)
    let whole := ({} : Session).takeAll (statements (withBody ++ roleComment))
    second.2.2 = some (.unrecognized (.role "R" 2)) ∧
      whole.2.2 = some (.unrecognized (.role "R" 7)) ∧
      whole.1 = second.1 := by
  intro second whole
  have hends : Ends withBody := by decide +kernel
  have hfirst : (({} : Session).takeAll (statements withBody)).2.2 = none := by decide +kernel
  obtain ⟨-, -, hsession, -, -, hfailure⟩ := takeAll_statements_append hends hfirst roleComment
  have hsecond : second.2.2 = some (.unrecognized (.role "R" 2)) := by decide +kernel
  refine ⟨hsecond, ?_, hsession⟩
  rw [show whole.2.2 = second.2.2.map (Failure.down withBody.length) from hfailure, hsecond]
  rfl

end SchemaTransfer.Load
