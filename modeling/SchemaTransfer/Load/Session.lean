import SchemaTransfer.Dump.FirstLine
import SchemaTransfer.Dump.Statement
import SchemaTransfer.Load.Object

/-!
# Loading a dump

A session takes statements one after the other. Besides the catalog it knows the current schema
and path, the kinds of the statements it took, and the names with a hyphen that it has reported,
each once.
-/
namespace SchemaTransfer.Load
open Unicode Dump

structure Session where
  catalog : Catalog := {}
  context : Context := {}
  /-- The kinds of the statements with a known form, the latest first. -/
  kinds : List Kind := []
  /-- The names whose hyphens have been reported, the latest first. -/
  dashed : List String := []
  deriving DecidableEq, Inhabited

/-- A name as it is reported: without blanks around it and without quotes. -/
def reportedName (written : String) : String :=
  .ofList (trimRight (unquoted (trim written.toList)))
where
  unquoted (cs : List Char) : List Char :=
    ((cs.dropWhile (· == '"')).reverse.dropWhile (· == '"')).reverse

/-- Whether a name loses hyphens and was not reported before. -/
def isNewlyDashed (dashed : List String) (name : String) : Bool :=
  name.toList.contains '-' && !dashed.contains name

/-- The notices that events give rise to, given the names reported before them. -/
def report (dashed : List String) : List Event → List String × List Notice
  | [] => (dashed, [])
  | .notice n :: events =>
    let (dashed, notices) := report dashed events
    (dashed, n :: notices)
  | .name written :: events =>
    let name := reportedName written
    if isNewlyDashed dashed name then
      let (dashed, notices) := report (name :: dashed) events
      (dashed, .dashDropped name :: notices)
    else report dashed events

/-- The current schema and path after a statement. -/
def nextContext (context : Context) : Form → Context
  | .setSchema schema => { context with schema }
  | .setPath path => { context with path }
  | _ => context

/-- What a statement does to the catalog. -/
def perform (c : Catalog) (context : Context) (s : Statement) : Form → Reading Catalog
  | .ignored => ⟨c, [.notice (.ignored (trim s.first) s.number)], .ok s.rest⟩
  | .createTablespace name => createTablespace c name s.rest
  | .createRole name => createRole c name s.number s.rest
  | .commentRole name text => commentRole c name text s.number s.rest
  | .createSchema name owner => createSchema c name owner s.number s.rest
  | .createSequence schema name => createSequence c schema name s.rest
  | .restartSequence schema name value => restartSequence c schema name value s.number s.rest
  | .createTable schema name => createTable c schema name s.number s.rest
  | .alterTable schema name => alterTable c schema name s.number s.rest
  | .restartIdentity schema owner column value =>
    restartIdentity c schema owner column value s.number s.rest
  | .createIndex unique indexSchema name schema owner =>
    createIndex c unique indexSchema name schema owner s.number s.rest
  | .commentColumn schema owner column text =>
    commentColumn c schema owner column text s.number s.rest
  | .commentTable schema name text => commentTable c schema name text s.rest
  | .createDomain schema name base => createDomain c schema name base s.number s.rest
  | .setSchema _ => ⟨c, [], .ok s.rest⟩
  | .setPath _ => ⟨c, [], .ok s.rest⟩
  | .createView schema name first => createView c context schema name first s.rest
  | .createTrigger schema name first => createTrigger c context schema name first s.rest
  | .commentTrigger schema name text => commentTrigger c schema name text s.number s.rest
  | .createFunction schema name first => createFunction c context schema name first s.rest

/-- What one statement did. -/
structure Step where
  session : Session
  notices : List Notice
  /-- The lines of the statement that were not looked at, unless it failed. -/
  outcome : Except Failure (List (List Char))

def Session.take (session : Session) (s : Statement) : Step :=
  match Form.ofLine? s.first with
  | none => ⟨session, [], .error (.unrecognized (.statement s.first s.number))⟩
  | some form =>
    let r := perform session.catalog session.context s form
    let (dashed, notices) := report session.dashed (form.names.map .name ++ r.events)
    ⟨{ catalog := r.value, context := nextContext session.context form,
       kinds := form.kind :: session.kinds, dashed },
      notices, r.outcome⟩

def Session.count (session : Session) (kind : Kind) : Nat := session.kinds.count kind

/-- The notice that goes with reading a statement, ahead of taking it. -/
def readNotices (t : Taken) : List Notice := (t.bodyStart.map Notice.bodyStarts).toList

/-- Takes statements up to the first that fails. -/
def Session.takeAll (session : Session) : List Taken → Session × List Notice × Option Failure
  | [] => (session, [], none)
  | t :: rest =>
    let step := session.take t.statement
    match step.outcome with
    | .error failure => (step.session, readNotices t ++ step.notices, some failure)
    | .ok _ =>
      let (session, notices, failure) := step.session.takeAll rest
      (session, readNotices t ++ step.notices ++ notices, failure)

end SchemaTransfer.Load
