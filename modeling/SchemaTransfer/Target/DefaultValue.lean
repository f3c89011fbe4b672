import SchemaTransfer.Catalog.Table
import SchemaTransfer.Failure
import SchemaTransfer.Text.Scan

/-!
# Implicit default values

The value of `WITH DEFAULT` without a value goes by the keyword that starts the type.
-/
namespace SchemaTransfer.DefaultValue
open Unicode Scan

/-- Starts of the numeric types. -/
def numeric : List String :=
  ["smallint", "int", "bigint", "dec", "numeric", "real", "double", "decfloat", "float"]

/-- Starts of the character types and of the binary ones. -/
def character : List String :=
  ["char", "graphic", "varchar", "long varchar", "clob", "vargraphic", "long vargraphic",
   "dbclob", "varbinary", "binary", "blob"]

def startsWithAny (keywords : List String) (type : List Char) : Bool :=
  keywords.any fun w => (keyword? w type).isSome

def isKeyword (keyword : String) (type : List Char) : Bool :=
  match keyword? keyword type with
  | some rest => wordEnds rest
  | none => false

def implicit? (type : String) : Option String :=
  let cs := type.toList
  if startsWithAny numeric cs then some "0"
  else if startsWithAny character cs then some "''"
  else if isKeyword "date" cs then some "current_date"
  else if isKeyword "timestamp" cs then some "current_timestamp"
  else if isKeyword "time" cs then some "current_time"
  else none

def implicit (type : String) : Except Failure String :=
  match implicit? type with
  | some value => .ok value
  | none => .error (.noImplicitDefault type)

end SchemaTransfer.DefaultValue
