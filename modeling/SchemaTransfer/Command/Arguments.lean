import SchemaTransfer.Level
import SchemaTransfer.Unicode.Digit

/-!
# Arguments of the command line

Options have long names, which may be cut short as long as one name only begins that way, and some
a name of one letter. A value stands behind an equals sign, directly behind the letter, or in the
next argument. The last of several values counts.
-/
namespace SchemaTransfer.Command
open Unicode

inductive Flag
  | help
  | file
  | outputDir
  | tablespaces
  | encoding
  | database
  | user
  | password
  | logDir
  | logLevel
  deriving DecidableEq, Inhabited

namespace Flag

def longNames : List (String × Flag) :=
  [("--help", .help), ("--file", .file), ("--output-dir", .outputDir),
   ("--tablespaces", .tablespaces), ("--encoding", .encoding), ("--db2-database", .database),
   ("--db2-user", .user), ("--db2-password", .password), ("--log-dir", .logDir),
   ("--log-level", .logLevel)]

def ofLetter? (c : Char) : Option Flag :=
  if c == 'h' then some .help
  else if c == 'f' then some .file
  else if c == 'o' then some .outputDir
  else none

end Flag

inductive Argument
  | value (text : String)
  /-- Two hyphens alone: all that follow are values. -/
  | separator
  | long (flag : Flag) (value : Option String)
  /-- What stands behind the letter, and whether behind an equals sign. -/
  | short (flag : Flag) (value : Option (Bool × List Char))
  | unknown
  deriving DecidableEq, Inhabited

namespace Argument

/-- Whether an argument is a negative number, and so a value in spite of its hyphen. -/
def isNegativeNumber : List Char → Bool
  | '-' :: cs =>
    let cs := if cs.getLast? = some '\n' then cs.dropLast else cs
    let rest := cs.dropWhile isDigit
    match rest with
    | [] => !cs.isEmpty
    | '.' :: rest => !rest.isEmpty && rest.all isDigit
    | _ => false
  | _ => false

/-- What an argument is that starts with a hyphen and no known name. -/
def other (arg : String) : Argument :=
  if isNegativeNumber arg.toList || arg.toList.contains ' ' then .value arg else .unknown

/-- An argument that starts with two hyphens; `none` if its name may stand for several options. -/
def long? (arg : String) : Option Argument :=
  let cs := arg.toList
  let name := cs.takeWhile (· != '=')
  let given := match cs.dropWhile (· != '=') with
    | [] => none
    | _ :: rest => some (String.ofList rest)
  match Flag.longNames.find? fun e => e.1.toList == name with
  | some e => some (.long e.2 given)
  | none =>
    match Flag.longNames.filter fun e => name.isPrefixOf e.1.toList with
    | [] => some (other arg)
    | [e] => some (.long e.2 given)
    | _ => none

/-- An argument that starts with one hyphen. -/
def ofLetter (arg : String) (c : Char) (rest : List Char) : Argument :=
  match Flag.ofLetter? c, rest with
  | none, _ => other arg
  | some flag, [] => .short flag none
  | some flag, '=' :: text => .short flag (some (true, text))
  | some flag, text => .short flag (some (false, text))

def ofString? (arg : String) : Option Argument :=
  match arg.toList with
  | ['-', '-'] => some .separator
  | '-' :: '-' :: _ => long? arg
  | '-' :: c :: rest => some (ofLetter arg c rest)
  | _ => some (.value arg)

/-- The arguments up to a separator, which makes all that follow values. -/
def ofStrings? : List String → Option (List Argument)
  | [] => some []
  | arg :: rest =>
    match ofString? arg with
    | none => none
    | some .separator => some (.separator :: rest.map .value)
    | some a => (ofStrings? rest).map (a :: ·)

end Argument

/-- The settings that an option may change and that have a value without it. -/
structure Settings where
  tablespaces : Bool := false
  encoding : Option String := none
  database : Option String := none
  user : Option String := none
  password : Option String := none
  logDir : String := "conversion_logs"
  logLevel : Level := .info
  deriving DecidableEq, Inhabited

structure Options extends Settings where
  file : String
  outputDir : String
  deriving DecidableEq, Inhabited

/-- Options as far as they have been read. -/
structure Draft extends Settings where
  file : Option String := none
  outputDir : Option String := none
  /-- An argument has been met that has no place. -/
  surplus : Bool := false
  deriving DecidableEq, Inhabited

inductive Parsed
  | options (options : Options)
  | help
  | usageError
  deriving DecidableEq, Inhabited

namespace Draft

def set (d : Draft) (flag : Flag) (value : String) : Option Draft :=
  match flag with
  | .file => some { d with file := some value }
  | .outputDir => some { d with outputDir := some value }
  | .encoding => some { d with encoding := some value }
  | .database => some { d with database := some value }
  | .user => some { d with user := some value }
  | .password => some { d with password := some value }
  | .logDir => some { d with logDir := value }
  | .logLevel => (Level.ofName? value).map fun logLevel => { d with logLevel }
  | .help | .tablespaces => none

/-- Without the two options that are required, or with an argument too many, there is nothing to
run. -/
def finish (d : Draft) : Parsed :=
  match d.file, d.outputDir, d.surplus with
  | some file, some outputDir, false => .options { d.toSettings with file, outputDir }
  | _, _, _ => .usageError

end Draft

/-- Whether the letters behind that of the help option make sense. `next` tells whether a value
follows in the next argument. -/
def isHelpBundle (next : Bool) : List Char → Bool
  | [] => false
  | c :: rest =>
    match Flag.ofLetter? c, rest with
    | none, _ => c != '-'
    | some .help, [] => true
    | some .help, '=' :: _ => false
    | some .help, rest => isHelpBundle next rest
    | some _, [] => next
    | some _, _ => true

def startsWithValue : List Argument → Bool
  | .value _ :: _ => true
  | _ => false

/-- Takes the arguments one after the other. The first error or request for help decides. -/
def parseFrom (d : Draft) : List Argument → Parsed
  | [] => d.finish
  | .value _ :: rest => parseFrom { d with surplus := true } rest
  | .separator :: rest => parseFrom { d with surplus := true } rest
  | .unknown :: rest => parseFrom { d with surplus := true } rest
  | .long .help none :: _ => .help
  | .long .help (some _) :: _ => .usageError
  | .short .help none :: _ => .help
  | .short .help (some (behindEquals, letters)) :: rest =>
    if !behindEquals && isHelpBundle (startsWithValue rest) letters then .help else .usageError
  | .long .tablespaces none :: rest => parseFrom { d with tablespaces := true } rest
  | .long .tablespaces (some _) :: _ => .usageError
  | .long flag (some value) :: rest =>
    match d.set flag value with
    | some d => parseFrom d rest
    | none => .usageError
  | .short flag (some (_, value)) :: rest =>
    match d.set flag (.ofList value) with
    | some d => parseFrom d rest
    | none => .usageError
  | .long flag none :: .value value :: rest =>
    match d.set flag value with
    | some d => parseFrom d rest
    | none => .usageError
  | .short flag none :: .value value :: rest =>
    match d.set flag value with
    | some d => parseFrom d rest
    | none => .usageError
  | .long _ none :: _ => .usageError
  | .short _ none :: _ => .usageError

def parse (argv : List String) : Parsed :=
  match Argument.ofStrings? argv with
  | some arguments => parseFrom {} arguments
  | none => .usageError

end SchemaTransfer.Command
