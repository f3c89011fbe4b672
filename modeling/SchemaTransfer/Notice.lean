import SchemaTransfer.Level
import SchemaTransfer.Text.Numeral

/-!
# What is reported on the way

A notice is recorded as its cause, in the order in which causes arise. Most notices are warnings;
the two about reading a dump are for debugging.
-/
namespace SchemaTransfer

inductive Notice
  /-- From this line on a statement ends only after its closing `END`. -/
  | bodyStarts (number : Nat)
  | ignored (first : List Char) (number : Nat)
  | dashDropped (name : String)
  /-- A character type that is too long for `varchar`. -/
  | longText (type : String) (size limit : Nat)
  | generatedAlways (column table : String)
  | generatedDefault (column table : String)
  /-- The `count`-th function of one name. -/
  | overloaded (schema name : String) (count : Nat)
  | renamed (schema kind wanted chosen : String)
  | noContainer (tablespace : String)
  | restartBelowMinimum (schema name : String) (restart least chosen : Int)
  | uniqueCovering (schema index name second : String)
  | covering (schema index : String)
  | notEnforced (key schema table : String)
  | ordered (column : String)
  | alwaysIdentity (column : String)
  | unparsable (object problem : String)
  deriving DecidableEq

/-- A name without its hyphens. -/
def withoutDashes (name : String) : String := .ofList (name.toList.filter (· != '-'))

namespace Notice

def level : Notice → Level
  | .bodyStarts _ => .debug
  | .ignored _ _ => .debug
  | _ => .warning

/-- Whether the numbers in the message are short enough to be written out. -/
def isSayable : Notice → Bool
  | .longText _ size _ => Numeral.fits size
  | .restartBelowMinimum _ _ restart least chosen =>
    [restart, least, chosen].all fun n => Numeral.fits n.natAbs
  | _ => true

def message : Notice → String
  | .bodyStarts n => s!"Line {n}: BEGIN ATOMIC function body, waiting for END"
  | .ignored first n => s!"Ignoring {String.ofList first} (line {n})"
  | .dashDropped name =>
    s!"Renamed {name} to {withoutDashes name}: '-' is not allowed in object names"
  | .longText type size limit =>
    s!"{type} holds up to {size} characters, more than varchar accepts ({limit}). " ++
      "It becomes text"
  | .generatedAlways column table =>
    s!"Column {column} of table {table} is GENERATED ALWAYS. " ++
      "This can't be done with PostgreSQL. It will be a default value"
  | .generatedDefault column table =>
    s!"Column {column} of table {table} has a default value using an expression. " ++
      "This may not work, you may have to correct it manually, and write a trigger"
  | .overloaded schema name count =>
    s!"Function {schema}.{name} is overloaded; definition {count} kept as a separate body"
  | .renamed schema kind wanted chosen =>
    s!"There is a naming conflict in schema {schema} for {kind} {wanted}. " ++
      s!"It has been renamed to {chosen}"
  | .noContainer tablespace => s!"Tablespace {tablespace} has no container path. It is not created"
  | .restartBelowMinimum schema name restart least chosen =>
    s!"Sequence {schema}.{name} has RESTART WITH {restart} below its MINVALUE {least}. " ++
      s!"Restarting at {chosen}"
  | .uniqueCovering schema index name second =>
    s!"{schema}.{index} is a UNIQUE covering index. " ++
      s!"It has been replaced by two indexes, {name} and {second}"
  | .covering schema index =>
    s!"{schema}.{index} is a covering index. " ++
      "As it is not unique, INCLUDE columns have been added as plain index columns"
  | .notEnforced key schema table =>
    s!"Foreign key {key} on {schema}.{table} is NOT ENFORCED in DB2. " ++
      "Its validation will probably fail"
  | .ordered column =>
    s!"Sequences in PostgreSQL have no ORDER restriction, and {column} is an ORDER identity. " ++
      "Behavior will be different"
  | .alwaysIdentity column =>
    s!"{column} is a GENERATED ALWAYS identity. " ++
      "It becomes a plain default, so explicit values will not be refused"
  | .unparsable object problem => s!"{object} does not parse as PostgreSQL: {problem}"

end Notice

/-- The texts of the warnings among some notices. -/
def warnings (notices : List Notice) : List String :=
  (notices.filter fun n => n.level = .warning).map Notice.message

end SchemaTransfer
