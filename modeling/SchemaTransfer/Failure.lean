import SchemaTransfer.Text.Quoted
import SchemaTransfer.Unicode.Blank

/-!
# Why a conversion stops

A failure is recorded as its cause: what was met and where. The wording is in `Failure.message`
alone. Lines of the dump are quoted without the blanks around them.
-/
namespace SchemaTransfer
open Unicode

/-- A statement of no known form, or one about an object that was not declared before. The number
is that of the first line of the statement. -/
inductive Unrecognized
  | statement (first : List Char) (number : Nat)
  | table (schema name : String) (number : Nat)
  | role (name : String) (number : Nat)
  | sequence (schema name : String) (number : Nat)
  | trigger (schema name : String) (number : Nat)
  | column (schema owner name : String) (number : Nat)
  | identity (schema owner name : String) (number : Nat)
  deriving DecidableEq

/-- A line inside a statement that does not have the expected shape. -/
inductive Malformed
  /-- Lines are left over. -/
  | overflow (statement : String) (number : Nat) (lines : List (List Char))
  | listItem (line : List Char) (context : String)
  | listUnterminated (context : String)
  | tablespaceLine (line : List Char)
  | containers (tablespace : String) (line : List Char)
  | containersUnterminated (tablespace : String)
  | sequenceLine (line : List Char)
  | tableLine (line : List Char) (table : String) (number : Nat)
  | noColumns (table : String) (number : Nat)
  | columnType (type : List Char) (column table : String)
  | columnDefault (default : List Char) (column table : String)
  | identityLine (line : List Char) (column : String)
  | identityUnterminated (column : String)
  | changeEmpty (context : String) (number : Nat)
  | changeLine (line : List Char) (context : String)
  | noReferences (line : List Char) (context : String)
  | foreignKeyLine (line : List Char) (context : String)
  | checkLine (line : List Char) (context : String)
  | checkEmpty (context : String)
  | indexLine (line : List Char) (context : String)
  deriving DecidableEq

inductive Failure
  | unrecognized (cause : Unrecognized)
  | malformed (cause : Malformed)
  /-- `WITH DEFAULT` without a value on a type that has no implicit default. -/
  | noImplicitDefault (type : String)
  /-- A number of more digits than numerals may have. -/
  | longNumber
  /-- A size unit other than K, M and G. -/
  | unknownUnit
  deriving DecidableEq

def shown (line : List Char) : String := Quoted.quote (trim line)

def Unrecognized.message : Unrecognized → String
  | .statement first n => s!"I don't understand <{String.ofList (trim first)}> (line {n})"
  | .table schema name n => s!"Table {schema}.{name} has not been declared (line {n})"
  | .role name n => s!"Role {name} hasn't been seen before (line {n})"
  | .sequence schema name n => s!"Sequence {schema}.{name} has not been declared (line {n})"
  | .trigger schema name n => s!"Trigger {schema}.{name} has not been declared (line {n})"
  | .column schema owner name n =>
    s!"Column {schema}.{owner}.{name} has not been declared (line {n})"
  | .identity schema owner name n =>
    s!"Column {schema}.{owner}.{name} is not an identity column (line {n})"

def Malformed.message : Malformed → String
  | .overflow statement n lines =>
    let rest := " ".intercalate (lines.map fun line => String.ofList (trim line))
    s!"Overflow in {statement} (line {n}): {rest}"
  | .listItem line context =>
    s!"I don't understand {shown line} in {context}. I expected a list of columns"
  | .listUnterminated context => s!"Unterminated list of columns in {context}"
  | .tablespaceLine line => s!"I don't understand {shown line} in a CREATE TABLESPACE section"
  | .containers tablespace line =>
    s!"I don't understand the list of files of tablespace {tablespace}: {shown line}"
  | .containersUnterminated tablespace =>
    s!"Unterminated list of files in tablespace {tablespace}"
  | .sequenceLine line => s!"I don't understand {shown line} in a CREATE SEQUENCE section"
  | .tableLine line table n =>
    s!"I don't understand {shown line} in the CREATE TABLE section of {table} " ++
      s!"(statement at line {n})"
  | .noColumns table n => s!"Table {table} has no columns (line {n})"
  | .columnType type column table =>
    s!"I don't understand the type {shown type} of column {column} in table {table}"
  | .columnDefault default column table =>
    s!"I don't understand the default {shown default} of column {column} in table {table}"
  | .identityLine line column =>
    s!"Cannot understand {shown line} in an IDENTITY definition of {column}"
  | .identityUnterminated column =>
    s!"IDENTITY definition of {column} is not terminated by [NO] ORDER"
  | .changeEmpty context n => s!"Empty {context} (line {n})"
  | .changeLine line context => s!"I don't understand {shown line} in an {context} section"
  | .noReferences line context =>
    s!"I don't understand {shown line} in an {context} section, expected REFERENCES"
  | .foreignKeyLine line context =>
    s!"I don't understand {shown line} in an {context} FOREIGN KEY section"
  | .checkLine line context =>
    s!"I don't understand {shown line} in an {context} CHECK section"
  | .checkEmpty context => s!"Empty CHECK condition in {context}"
  | .indexLine line context => s!"I don't understand {shown line} in a {context} section"

/-- The text that goes with a failure; the last two have none. -/
def Failure.message? : Failure → Option String
  | .unrecognized cause => some cause.message
  | .malformed cause => some cause.message
  | .noImplicitDefault type =>
    some s!"Unknown type {type} when trying to find the implicit WITH DEFAULT value"
  | .longNumber => none
  | .unknownUnit => none

end SchemaTransfer
