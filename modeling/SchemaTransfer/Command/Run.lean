import SchemaTransfer.Command.Plan

/-!
# Runs on a tree of files

The effect of a run on given files. The first action that fails ends the run.
-/
namespace SchemaTransfer.Command

/-- The file that keeps the messages, and the messages so far. -/
structure Log where
  path : String
  messages : List (Level × String) := []
  deriving DecidableEq, Inhabited

/-- What actions have changed. -/
structure World where
  files : FileTree
  log : Option Log := none
  deriving DecidableEq, Inhabited

namespace World

/-- Takes files that were changed, or remains as it is if the change failed. -/
def change (w : World) (f : FileTree → World) :
    Except FileError FileTree → World × Option FileError
  | .ok files => (f files, none)
  | .error e => (w, some e)

/-- What a file that is there already holds stays in it. -/
def startLog (w : World) (path : String) : World × Option FileError :=
  w.change (fun files => { files, log := some { path } }) (w.files.append path "")

/-- There is nobody to hear a message before the log is started. -/
def say (w : World) (now : Moment) (level : Level) (text : String) : World × Option FileError :=
  match w.log with
  | none => (w, none)
  | some log =>
    w.change
      (fun files =>
        { files, log := some { log with messages := log.messages ++ [(level, text)] } })
      (w.files.append log.path (s!"{now.date} {now.time}  {level.line text}" ++ "\n"))

end World

/-- Performs an action at a fixed time. -/
def Action.perform (now : Moment) (w : World) : Action → World × Option FileError
  | .makeDirectory path =>
    let (files, problem) := w.files.makeDirectory path
    ({ w with files }, problem)
  | .makeDirectories path =>
    let (files, problem) := w.files.makeDirectories path
    ({ w with files }, problem)
  | .startLog path => w.startLog path
  | .say level text => w.say now level text
  | .write path text => w.change (fun files => { w with files }) (w.files.write path text)

def performAll (now : Moment) (w : World) : List Action → World × Option FileError
  | [] => (w, none)
  | action :: rest =>
    match action.perform now w with
    | (w, none) => performAll now w rest
    | failed => failed

structure Outcome where
  files : FileTree
  /-- The lines on the console, unless the run ended before its log was started. -/
  console : Option (List String)
  ending : Ending
  deriving DecidableEq

def World.outcome (w : World) (threshold : Level) (ending : Ending) : Outcome :=
  { files := w.files, ending
    console := w.log.map fun log =>
      (log.messages.filter fun m => threshold ≤ m.1).map fun m => m.1.line m.2 }

/-- A run with options, at a fixed time. -/
def runOptions (codecs : Codecs) (o : Options) (env : Environment) (now : Moment)
    (elapsed : Float) (verdicts : List Verdict) (files : FileTree) : Outcome :=
  match performAll now { files } (opening o env now) with
  | (w, some e) => w.outcome o.logLevel (.crashed (.file e))
  | (w, none) =>
    let plan := Plan.ofRead codecs o (Login.of o env) now elapsed verdicts (w.files.read o.file)
    match performAll now w plan.actions with
    | (w, some e) => w.outcome o.logLevel (.crashed (.file e))
    | (w, none) => w.outcome o.logLevel plan.ending

/-- A run with the arguments of a command line. -/
def run (codecs : Codecs) (argv : List String) (env : Environment) (now : Moment)
    (elapsed : Float) (verdicts : List Verdict) (files : FileTree) : Outcome :=
  match parse argv with
  | .usageError => ⟨files, none, .exit 2⟩
  | .help => ⟨files, none, .exit 0⟩
  | .options o => runOptions codecs o env now elapsed verdicts files

end SchemaTransfer.Command
