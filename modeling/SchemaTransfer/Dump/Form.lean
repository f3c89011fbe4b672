import SchemaTransfer.Text.Scan

/-!
# Forms of statements

The first line of a statement tells its form and the names it is about. The owner of a column or
of an index is its table or view, by name; the owner of a schema is a role.
-/
namespace SchemaTransfer.Dump
open Unicode

/-- A name as a user types it. -/
inductive NameToken
  /-- The text between double quotes. -/
  | quoted (text : List Char)
  | plain (text : List Char)
  deriving DecidableEq, Inhabited

namespace NameToken

def written : NameToken → String
  | quoted text => .ofList ('"' :: text ++ ['"'])
  | plain text => .ofList text

/-- The name that the database stores: in upper case unless it is quoted. -/
def name : NameToken → String
  | quoted text => .ofList (trimRight text)
  | plain text => .ofList (upper text)

end NameToken

inductive Form
  | ignored
  | createTablespace (name : String)
  | createRole (name : String)
  | commentRole (name : String) (text : List Char)
  | createSchema (name : String) (owner : Option String)
  | createSequence (schema name : String)
  /-- The value is a numeral. -/
  | restartSequence (schema name : String) (value : List Char)
  | createTable (schema name : String)
  | alterTable (schema name : String)
  | restartIdentity (schema owner column : String) (value : List Char)
  | createIndex (unique : Bool) (indexSchema name schema owner : String)
  | commentColumn (schema owner column : String) (text : List Char)
  | commentTable (schema name : String) (text : List Char)
  | createDomain (schema name : String) (base : List Char)
  | setSchema (schema : String)
  | setPath (path : String)
  | createView (schema : Option NameToken) (name : NameToken) (rest : List Char)
  | createTrigger (schema : Option NameToken) (name : NameToken) (rest : List Char)
  | commentTrigger (schema name : String) (text : List Char)
  | createFunction (schema : Option NameToken) (name : NameToken) (rest : List Char)
  deriving DecidableEq, Inhabited

inductive Kind
  | ignored
  | createTablespace
  | createRole
  | commentRole
  | createSchema
  | createSequence
  | restartSequence
  | createTable
  | alterTable
  | restartIdentity
  | createIndex
  | commentColumn
  | commentTable
  | createDomain
  | setSchema
  | setPath
  | createView
  | createTrigger
  | commentTrigger
  | createFunction
  deriving DecidableEq, Inhabited

namespace Form

def kind : Form → Kind
  | ignored => .ignored
  | createTablespace .. => .createTablespace
  | createRole .. => .createRole
  | commentRole .. => .commentRole
  | createSchema .. => .createSchema
  | createSequence .. => .createSequence
  | restartSequence .. => .restartSequence
  | createTable .. => .createTable
  | alterTable .. => .alterTable
  | restartIdentity .. => .restartIdentity
  | createIndex .. => .createIndex
  | commentColumn .. => .commentColumn
  | commentTable .. => .commentTable
  | createDomain .. => .createDomain
  | setSchema .. => .setSchema
  | setPath .. => .setPath
  | createView .. => .createView
  | createTrigger .. => .createTrigger
  | commentTrigger .. => .commentTrigger
  | createFunction .. => .createFunction

/-- The name of an object before the schemas and the objects it belongs to. -/
def typedNames (schema : Option NameToken) (name : NameToken) : List String :=
  name.written :: (schema.map NameToken.written).toList

/-- The names that a first line holds, as they are written. -/
def names : Form → List String
  | ignored => []
  | createTablespace name => [name]
  | createRole name => [name]
  | commentRole name _ => [name]
  | createSchema name owner => name :: owner.toList
  | createSequence schema name => [name, schema]
  | restartSequence schema name _ => [name, schema]
  | createTable schema name => [name, schema]
  | alterTable schema name => [name, schema]
  | restartIdentity schema owner column _ => [schema, owner, column]
  | createIndex _ indexSchema name schema owner => [name, schema, owner, indexSchema]
  | commentColumn schema owner column _ => [schema, owner, column]
  | commentTable schema name _ => [schema, name]
  | createDomain schema name _ => [name, schema]
  | setSchema schema => [schema]
  | setPath _ => []
  | createView schema name _ => typedNames schema name
  | createTrigger schema name _ => typedNames schema name
  | commentTrigger schema name _ => [name, schema]
  | createFunction schema name _ => typedNames schema name

end Form

end SchemaTransfer.Dump
