import SchemaTransfer.Proofs.Load.Hyphens

/-!
# Names reported in a run

What a statement tells of besides names is never about hyphens. So the notices about hyphens in a
run are those that reporting gives, one for each name, and they cover the names in the catalog at
every point of the run, failing statements included.
-/
namespace SchemaTransfer.Load
open Unicode Dump

theorem dashedName?_of_characterObject {type : String} {digits : List Char} {unit : Option Char}
    {r : String × List Notice} (h : TypeName.characterObject type digits unit = .ok r) :
    ∀ n ∈ r.2, dashedName? n = none := by
  unfold TypeName.characterObject at h
  cases hn : Numeral.natural? digits with
  | none =>
    rw [hn] at h
    cases h
  | some n =>
    rw [hn] at h
    cases hm : TypeName.multiplier? unit with
    | none =>
      rw [hm] at h
      cases h
    | some m =>
      rw [hm] at h
      dsimp only at h
      split at h
      · cases Except.ok.inj h
        exact List.forall_mem_singleton.2 rfl
      · cases Except.ok.inj h
        exact List.forall_mem_nil _

theorem dashedName?_of_convert {type : List Char} {r : String × List Notice}
    (h : TypeName.convert type = .ok r) : ∀ n ∈ r.2, dashedName? n = none := by
  rcases convert_cases type with ⟨spelling, hok⟩ | ⟨name, digits, unit, hobject⟩
  · cases Except.ok.inj (hok.symm.trans h)
    exact List.forall_mem_nil _
  · exact dashedName?_of_characterObject (hobject.symm.trans h)

theorem quiet_nil : Quiet [] := fun n hn => by cases hn

namespace TableBody

variable {shown : String} {number : Nat}

theorem dashedName?_of_clause (c : ColumnLine) :
    ∀ n ∈ clauseNotices shown c, dashedName? n = none := by
  unfold clauseNotices
  split
  · next always expression _ =>
    unfold generatedNotices
    cases always <;> simp [dashedName?]
  · exact List.forall_mem_nil _

theorem quiet_addColumn (b : TableBody) (c : ColumnLine) : Quiet (addColumn shown b c).2.1 := by
  unfold addColumn
  split
  · exact quiet_nil
  · split
    · exact quiet_names [c.name]
    · next type notices hconvert =>
      have hnotices : ∀ n ∈ notices ++ clauseNotices shown c, dashedName? n = none := fun n hn =>
        (List.mem_append.1 hn).elim (dashedName?_of_convert hconvert n) (dashedName?_of_clause c n)
      exact (quiet_names [c.name]).append (quiet_notices hnotices)

theorem quiet_step (b : TableBody) (line : List Char) : Quiet (step shown number b line).2.1 := by
  unfold step
  split
  · unfold identityLine
    split
    · exact quiet_nil
    · split <;> exact quiet_nil
  · unfold storageLine
    split <;> exact quiet_nil
  · split
    · exact quiet_addColumn b _
    · split
      · exact quiet_nil
      · unfold storageLine
        split <;> exact quiet_nil

theorem quiet_read (b : TableBody) (lines : List (List Char)) :
    Quiet (read shown number b lines).events := by
  induction lines generalizing b with
  | nil =>
    rw [read]
    split <;> exact quiet_nil
  | cons line rest ih =>
    rw [read]
    have hstep : Quiet (step shown number b line).2.1 := quiet_step b line
    split
    · next b' events hcases =>
      rw [hcases] at hstep
      exact hstep.append (ih b')
    · next b' events failure hcases =>
      rw [hcases] at hstep
      exact hstep

end TableBody

theorem sequence_events (s : Sequence) (lines : List (List Char)) :
    (SequenceBody.read s lines).events = [] := by
  induction lines generalizing s with
  | nil => rfl
  | cons line rest ih =>
    rw [SequenceBody.read]
    split
    · rfl
    · split
      · exact ih _
      · rfl

theorem tablespace_events (t : Tablespace) (inList : Bool) (lines : List (List Char)) :
    (TablespaceBody.read t inList lines).events = [] := by
  induction lines generalizing t inList with
  | nil => cases inList <;> rfl
  | cons line rest ih =>
    rw [tablespace_read_cons]
    split
    · split
      · rfl
      · exact ih _ _
    · split
      · exact ih _ _
      · rfl

theorem expectEnd_events {α : Type} (value : α) (statement : String) (number : Nat)
    (lines : List (List Char)) : (Reading.expectEnd value statement number lines).events = [] := by
  unfold Reading.expectEnd
  split <;> rfl

theorem quiet_alter (context : String) (number : Nat) (t : Table) (lines : List (List Char)) :
    Quiet (AlterBody.read context number t lines).events := by
  unfold AlterBody.read
  split
  · exact quiet_nil
  · split
    · exact quiet_nil
    · have hevents {α : Type} (value : α) (result : Except Failure α) :
          (Reading.ofExcept value result).events = [] := by cases result <;> rfl
      rw [Reading.after, hevents, List.append_nil]
      exact quiet_names _

theorem quiet_perform (c : Catalog) (context : Context) (s : Statement) (form : Form) :
    Quiet (perform c context s form).events := by
  cases form with
  | ignored => exact quiet_notices (List.forall_mem_singleton.2 rfl)
  | createTablespace name =>
    rw [perform, createTablespace, Reading.map, tablespace_events]
    exact quiet_nil
  | createRole name =>
    rw [perform, createRole, expectEnd_events]
    exact quiet_nil
  | commentRole name text =>
    rw [perform, commentRole]
    split <;> exact quiet_nil
  | createSchema name owner =>
    unfold perform createSchema
    dsimp only
    rw [expectEnd_events]
    exact quiet_nil
  | createSequence schema name =>
    rw [perform, createSequence, Reading.map, sequence_events]
    exact quiet_nil
  | restartSequence schema name value =>
    rw [perform, restartSequence]
    split
    · exact quiet_nil
    · split
      · exact quiet_nil
      · rw [expectEnd_events]
        exact quiet_nil
  | createTable schema name => exact TableBody.quiet_read _ _
  | alterTable schema name =>
    rw [perform, alterTable]
    split
    · exact quiet_nil
    · exact quiet_alter _ _ _ _
  | restartIdentity schema owner column value =>
    rw [perform, restartIdentity]
    split
    · exact quiet_nil
    · split
      · exact quiet_nil
      · split
        · exact quiet_nil
        · dsimp only
          rw [expectEnd_events]
          exact quiet_nil
  | createIndex unique indexSchema name schema owner =>
    rw [perform, createIndex]
    split
    · exact quiet_nil
    · dsimp only
      cases (IndexBody.read ("CREATE INDEX " ++ TableBody.display indexSchema name) unique
        indexSchema name s.rest) <;> exact quiet_nil
  | commentColumn schema owner column text =>
    rw [perform, commentColumn]
    dsimp only
    split
    · exact quiet_nil
    · split <;> exact quiet_nil
  | commentTable schema name text =>
    rw [perform, commentTable]
    split <;> exact quiet_nil
  | createDomain schema name base =>
    rw [perform, createDomain]
    split
    · exact quiet_nil
    · next hconvert =>
      rw [Reading.after, expectEnd_events, List.append_nil]
      exact quiet_notices (dashedName?_of_convert hconvert)
  | setSchema schema => exact quiet_nil
  | setPath path => exact quiet_nil
  | createView schema name first => exact quiet_nil
  | createTrigger schema name first => exact quiet_nil
  | commentTrigger schema name text =>
    rw [perform, commentTrigger]
    split <;> exact quiet_nil
  | createFunction schema name first =>
    rw [perform, createFunction]
    refine quiet_notices ?_ |>.append quiet_nil
    split
    · exact List.forall_mem_nil _
    · exact List.forall_mem_singleton.2 rfl

theorem heardToken_of_names {dashed : List String} {schema : Option NameToken} {name : NameToken}
    (h : ∀ w ∈ Form.typedNames schema name, Heard dashed w) :
    ∀ token ∈ name :: schema.toList, Heard dashed token.written := by
  intro token htoken
  refine h _ ?_
  cases schema with
  | none => exact List.mem_map_of_mem (f := NameToken.written) htoken
  | some s => exact List.mem_map_of_mem (f := NameToken.written) htoken

/-- The names on a first line are the stored ones, except where a user typed them. -/
theorem isReported_storedNames {dashed : List String} {line : List Char} {form : Form}
    (hform : Form.ofLine? line = some form) (h : ∀ w ∈ form.names, Heard dashed w) :
    ∀ n ∈ storedNames form, IsReported dashed n := by
  have htyped {schema : Option NameToken} {name : NameToken}
      (htokens : ∀ token ∈ name :: schema.toList, IsTyped token)
      (hheard : ∀ w ∈ Form.typedNames schema name, Heard dashed w) :
      ∀ n ∈ name.name :: (schema.map NameToken.name).toList, IsReported dashed n := by
    have htoken : ∀ token ∈ name :: schema.toList, IsReported dashed token.name :=
      fun token hmem => isReported_of_heardToken (htokens token hmem)
        (heardToken_of_names hheard token hmem)
    cases schema <;> simpa using htoken
  have htokens := isTyped_of_ofLine? hform
  cases form with
  | createView schema name first => exact htyped htokens h
  | createTrigger schema name first => exact htyped htokens h
  | createFunction schema name first => exact htyped htokens h
  | _ => exact fun n hn => isReported_of_heard (h n hn)

/-- Every name in the catalog that has a hyphen has been reported, each once. -/
structure Session.Reports (session : Session) : Prop where
  dashed : Dashed session.dashed
  names : session.catalog.AllNames (IsReported session.dashed)
  schema : IsReported session.dashed session.context.schema

theorem reports_start : ({} : Session).Reports :=
  ⟨⟨List.nodup_nil, List.forall_mem_nil _⟩, Catalog.allNames_empty _,
    fun hhyphen => absurd hhyphen (by decide)⟩

/-- What a statement puts into the catalog it took from its first line, has told of, or found in the
context. -/
theorem take_reports {session : Session} (h : session.Reports) (s : Statement) :
    (session.take s).session.Reports := by
  unfold Session.take
  cases hform : Form.ofLine? s.first with
  | none => exact h
  | some form =>
    dsimp only
    generalize hr : perform session.catalog session.context s form = r
    generalize hevents : form.names.map .name ++ r.events = events
    have hmore {name : String} : IsReported session.dashed name →
        IsReported (report session.dashed events).1 name :=
      IsReported.mono fun n hn => mem_report hn events
    have hheard {name : String} (hname : .name name ∈ events) :
        Heard (report session.dashed events).1 name := heard_report session.dashed hname
    have hstored := isReported_storedNames hform fun w hw => hheard
      (hevents ▸ List.mem_append_left _ (List.mem_map_of_mem hw))
    have htold : Told (IsReported (report session.dashed events).1) r.events := fun n hn =>
      isReported_of_heard (hheard (hevents ▸ List.mem_append_right _ hn))
    have hschema := hmore h.schema
    refine ⟨h.dashed.report events, ?_, ?_⟩
    · rw [← hr] at htold ⊢
      exact perform_allNames (h.names.mono fun n => hmore) hschema hstored htold
    · cases form with
      | setSchema schema => exact hstored schema List.mem_cons_self
      | _ => exact hschema

theorem take_dashed (session : Session) (s : Statement) : (session.take s).session.dashed =
    (dashedNames (session.take s).notices).reverse ++ session.dashed := by
  unfold Session.take
  cases Form.ofLine? s.first with
  | none => rfl
  | some form => exact report_fst ((quiet_names _).append (quiet_perform _ _ s form))

/-- The notices of statements, those of failing ones and of what comes behind them included. -/
def Session.noticesOn (session : Session) : List Statement → List Notice
  | [] => []
  | s :: rest => (session.take s).notices ++ (session.take s).session.noticesOn rest

theorem goOn_reports {session : Session} (h : session.Reports) (statements : List Statement) :
    (session.goOn statements).Reports := by
  induction statements generalizing session with
  | nil => exact h
  | cons s statements ih => exact ih (take_reports h s)

theorem goOn_dashed (session : Session) (statements : List Statement) :
    (session.goOn statements).dashed =
      (dashedNames (session.noticesOn statements)).reverse ++ session.dashed := by
  induction statements generalizing session with
  | nil => rfl
  | cons s statements ih =>
    have hrest := ih (session.take s).session
    rw [take_dashed, ← List.append_assoc, ← List.reverse_append] at hrest
    rw [Session.noticesOn, dashedNames, List.filterMap_append]
    exact hrest

/-- Whatever statements are taken, failing ones included: no name is reported twice for its
hyphens, each one reported has some, and in the end those in the catalog are reported. -/
theorem hyphens_reported (statements : List Statement) :
    let names := dashedNames (({} : Session).noticesOn statements)
    names.Nodup ∧ (∀ n ∈ names, '-' ∈ n.toList) ∧
      (({} : Session).goOn statements).catalog.AllNames (IsReported names) := by
  intro names
  have hreports := goOn_reports reports_start statements
  have hdashed : (({} : Session).goOn statements).dashed = names.reverse := by
    rw [goOn_dashed, List.append_nil]
  obtain ⟨⟨hnodup, hhyphen⟩, hnames, -⟩ := hreports
  rw [hdashed] at hnodup hhyphen hnames
  refine ⟨List.nodup_reverse.1 hnodup, fun n hn => hhyphen n (List.mem_reverse.2 hn), ?_⟩
  exact hnames.mono fun n => IsReported.mono fun r hr => List.mem_reverse.1 hr

/-- The first statement fails, behind a column that it tells of. -/
example : dashedNames (({} : Session).noticesOn
    [⟨"CREATE TABLE \"S\".\"MY-T\"  (".toList, ["  \"A-B\" INTEGER ,".toList, "  C".toList], 1⟩,
     ⟨"COMMENT ON TABLE \"S\".\"MY-T\" IS 'x'".toList, [], 4⟩]) = ["MY-T", "A-B"] := by
  decide +kernel

end SchemaTransfer.Load
