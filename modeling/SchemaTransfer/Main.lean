import SchemaTransfer.Command.Plan

/-!
# The program

Performs the plan of a run on the files of the system. No checker of the target's language is at
hand here, so every text counts as accepted, and no other encodings are known.
-/
open SchemaTransfer Command

namespace SchemaTransfer.Program

def usage : String :=
  "usage: schema-transfer [-h] -f FILE -o OUTPUT_DIR [--tablespaces] [--encoding ENCODING]\n" ++
    "                       [--db2-database NAME] [--db2-user NAME] [--db2-password TEXT]\n" ++
    "                       [--log-dir DIR] [--log-level DEBUG|INFO|WARNING|ERROR]"

def help : String :=
  usage ++ "\n\n" ++
    "Converts a schema dump of DB2 into scripts for PostgreSQL: before.sql (run before loading\n" ++
    "the data), after.sql (run after) and unsure.sql (to be reviewed). With a database, a user\n" ++
    "and a password a script that exports the data is written, too."

/-- The present moment, taken from a file made for this purpose. -/
def now : IO Moment := do
  let (_, path) ← IO.FS.createTempFile
  let time := (← path.metadata).modified
  IO.FS.removeFile path
  return .ofSeconds time.sec.toNat (time.nsec.toNat / 1000)

def fileError (path : String) (e : IO.Error) : FileError :=
  let problem : FileProblem := match e with
    | .noFileOrDirectory .. => .missing
    | .alreadyExists .. => .exists
    | .inappropriateType .. => .isDirectory
    | _ => .other (toString e)
  ⟨problem, path⟩

structure State where
  threshold : Level
  log : Option String := none

def say (s : State) (level : Level) (text : String) : IO Unit := do
  if let some path := s.log then
    let m ← now
    let handle ← IO.FS.Handle.mk path .append
    handle.putStrLn s!"{m.date} {m.time}  {level.line text}"
  if s.threshold ≤ level then
    IO.println (level.line text)

def perform (s : State) : Action → IO State
  | .makeDirectory path | .makeDirectories path => do
    IO.FS.createDirAll path
    return s
  | .startLog path => do
    let _ ← IO.FS.Handle.mk path .append
    return { s with log := some path }
  | .say level text => do
    say s level text
    return s
  | .write path text => do
    IO.FS.writeFile path text
    return s

def read (path : String) : IO (Except FileError (List UInt8)) := do
  let path := Path.normal path
  try
    return .ok (← IO.FS.readBinFile path).toList
  catch e =>
    return .error (fileError path e)

def failed (text : String) : IO UInt32 := do
  IO.eprintln text
  return 1

/-- The status with which the program ends. -/
def finish : Ending → IO UInt32
  | .completed => return 0
  | .exit status => return status.toUInt32
  | .crashed (.file e) => failed e.message
  | .crashed (.reading failure) => failed failure.message
  | .crashed (.conversion _) => failed "a number in the dump is out of range"

def run (o : Options) : IO UInt32 := do
  let start ← IO.monoMsNow
  let moment ← now
  let env : Environment :=
    ⟨← IO.getEnv "DB2_DATABASE", ← IO.getEnv "DB2_USER", ← IO.getEnv "DB2_PASSWORD"⟩
  let state ← (opening o env moment).foldlM perform { threshold := o.logLevel }
  let content ← read o.file
  let elapsed := ((← IO.monoMsNow) - start).toFloat / 1000
  let plan := Plan.ofRead .none o (Login.of o env) moment elapsed [] content
  let _ ← plan.actions.foldlM perform state
  finish plan.ending

end SchemaTransfer.Program

def main (argv : List String) : IO UInt32 :=
  match parse argv with
  | .usageError => do
    IO.eprintln Program.usage
    return 2
  | .help => do
    IO.println Program.help
    return 0
  | .options o => Program.run o
