import SchemaTransfer.Command.Arguments
import SchemaTransfer.Command.FileTree
import SchemaTransfer.Conversion
import SchemaTransfer.Encoding.Basic
import SchemaTransfer.Manifest
import SchemaTransfer.Report

/-!
# What a run of the program does

A run is planned as a list of actions in two parts: one before the dump is read, and one that
depends on what was read. Output files are written only in the second part, behind everything that
may fail in reading and converting the dump.
-/
namespace SchemaTransfer.Command

inductive Action
  | makeDirectory (path : String)
  /-- Makes a directory for logs, whose path is taken as it is written. -/
  | makeDirectories (path : String)
  /-- From here on messages are kept in a file, too. -/
  | startLog (path : String)
  | say (level : Level) (text : String)
  | write (path text : String)
  deriving DecidableEq

/-- A failure that a run does not report by itself. -/
inductive Crash
  | file (error : FileError)
  | reading (failure : ReadFailure)
  | conversion (failure : Failure)
  deriving DecidableEq

inductive Ending
  | completed
  | exit (status : Nat)
  | crashed (crash : Crash)
  deriving DecidableEq

structure Plan where
  actions : List Action
  ending : Ending
  deriving DecidableEq

/-- Settings from outside the command line. -/
structure Environment where
  database : Option String := none
  user : Option String := none
  password : Option String := none
  deriving DecidableEq, Inhabited

/-- An option of the command line, or else of the environment. Empty values do not count. -/
def setting (option environment : Option String) : Option String :=
  (given option).or (given environment)

structure Login where
  database : Option String
  user : Option String
  password : Option String
  deriving DecidableEq, Inhabited

namespace Login

def of (o : Options) (env : Environment) : Login :=
  ⟨setting o.database env.database, setting o.user env.user, setting o.password env.password⟩

/-- The login, if nothing of it is missing. -/
def credentials? (l : Login) : Option Credentials := do
  return ⟨← l.database, ← l.user, ← l.password⟩

def isPartial (l : Login) : Bool :=
  l.credentials?.isNone && (l.database.isSome || l.user.isSome || l.password.isSome)

def warning : String :=
  "DB2 database, user and password are all needed for export.db2. It will not be written"

def warnings (l : Login) : List String := if l.isPartial then [warning] else []

end Login

def info (text : String) : Action := .say .info text

def rule : String := String.ofList (List.replicate 72 '=')

def banner (title : String) : List Action := [info rule, info title, info rule]

def logName (now : Moment) : String := s!"conversion_{now.stamp}.log"

/-- The actions before the dump is read. -/
def opening (o : Options) (env : Environment) (now : Moment) : List Action :=
  let log := Path.child o.logDir (logName now)
  [.makeDirectories o.logDir, .startLog log, info s!"Log file: {log}"] ++
    banner "DB2-TO-POSTGRESQL DDL MIGRATOR — STARTED" ++
    [info s!"Input: {o.file}", info s!"Output directory: {o.outputDir}"] ++
    (Login.of o env).warnings.map (.say .warning)

def noticeActions (notices : List Notice) : List Action :=
  notices.map fun n => .say n.level n.message

def failurePlan (o : Options) (f : Failure) : Plan :=
  match f.message? with
  | some message =>
    ⟨[.say .error s!"FATAL: {message}",
      .say .error s!"Nothing has been written to {o.outputDir}"], .exit 1⟩
  | none => ⟨[], .crashed (.conversion f)⟩

/-- The files of a conversion, by their names in the output directory. -/
def outputs (c : Conversion) (login : Login) : List (String × String) :=
  let catalog := c.session.catalog
  [("before.sql", c.scripts.before.render), ("after.sql", c.scripts.after.render),
   ("unsure.sql", c.scripts.unsure.render), ("TABLEDESC", catalog.manifest)] ++
    (login.credentials?.map fun l => ("export.db2", catalog.exportScript l)).toList

def writeOutputs (o : Options) (c : Conversion) (login : Login) : List Action :=
  .makeDirectory o.outputDir ::
    (outputs c login).flatMap fun (name, text) =>
      let path := Path.child o.outputDir name
      [.write path text, info s!"  [FILE] {path}"]

def loadedSummary (s : Load.Session) : Action :=
  info (s!"  {s.kinds.length} statement(s) parsed, {s.catalog.schemas.size} schema(s), " ++
    s!"{s.catalog.tables.length} table(s), {s.catalog.views.length} view(s)")

/-- The last actions of a run that succeeds. -/
def closing (o : Options) (now : Moment) (elapsed : Float) (c : Conversion) (login : Login)
    (warnings : List String) : List Action :=
  let renames := c.emission.names.renames
  let path := Path.child o.logDir (Report.fileName now)
  let report : Report :=
    { moment := now, input := o.file, elapsed, tally := c.emission.tally, renames, warnings }
  [info s!"  {renames.length} rename(s) to avoid name conflicts"] ++
    banner "PHASE 3: WRITING FILES" ++ writeOutputs o c login ++
    [.makeDirectories o.logDir, .write path report.render, info rule,
     info s!"DB2-TO-POSTGRESQL DDL MIGRATOR — COMPLETE ({Fixed.ofFloat 1 elapsed}s)",
     info s!"  {warnings.length} warning(s), {renames.length} rename(s)",
     info s!"  Report: {path}", info rule]

namespace Plan

def after (actions : List Action) (p : Plan) : Plan := { p with actions := actions ++ p.actions }

/-- Says notices and goes on, unless there is one among them whose numbers cannot be written. -/
def afterNotices (notices : List Notice) (p : Plan) : Plan :=
  if notices.all Notice.isSayable then p.after (noticeActions notices)
  else
    ⟨noticeActions (notices.takeWhile Notice.isSayable), .crashed (.conversion .longNumber)⟩

/-- The plan for a dump that has lines. -/
def ofResult (o : Options) (login : Login) (now : Moment) (elapsed : Float)
    (r : Conversion.Result) : Plan :=
  let ending := match r.outcome with
    | .error f => failurePlan o f
    | .ok c =>
      ⟨closing o now elapsed c login (login.warnings ++ SchemaTransfer.warnings r.loading ++
        SchemaTransfer.warnings r.emitting), .completed⟩
  let emitting := (afterNotices r.emitting ending).after ((r.loaded.map fun s =>
    loadedSummary s :: banner "PHASE 2: GENERATING POSTGRESQL DDL").getD [])
  (afterNotices r.loading emitting).after (banner "PHASE 1: PARSING THE DB2 DUMP")

/-- The plan behind the opening, given what came of reading the dump. -/
def ofRead (codecs : Codecs) (o : Options) (login : Login) (now : Moment) (elapsed : Float)
    (verdicts : List Verdict) (read : Except FileError (List UInt8)) : Plan :=
  match read with
  | .error e =>
    match e.problem with
    | .nullCharacter => ⟨[], .crashed (.file e)⟩
    | _ => ⟨[.say .error s!"FATAL: cannot read {o.file}: {e.message}"], .exit 1⟩
  | .ok bytes =>
    let remark := info (encodingRemark o.encoding bytes)
    match readLines codecs o.encoding bytes with
    | .error (.undecodable fault) =>
      let encoding := o.encoding.getD "None"
      ⟨[remark, .say .error s!"FATAL: {o.file} is not valid {encoding}: {fault.message}"],
        .exit 1⟩
    | .error failure => ⟨[remark], .crashed (.reading failure)⟩
    | .ok lines =>
      (ofResult o login now elapsed (convert o.tablespaces verdicts lines)).after [remark]

end Plan

end SchemaTransfer.Command
