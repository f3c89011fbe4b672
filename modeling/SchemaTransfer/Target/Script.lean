import SchemaTransfer.Catalog.Basic
import SchemaTransfer.Target.Identifier
import SchemaTransfer.Text.Lines

/-!
# Scripts for the target

A script is a list of items, most of which are statements. An item holds names as they are known
before they are written; `Item.render` alone knows how a statement is spelled.
-/
namespace SchemaTransfer

/-- What a sequence is created with. -/
structure SequenceOptions where
  increment : Option Int := none
  minValue : Option Int := none
  maxValue : Option Int := none
  start : Option Int := none
  cache : Option Int := none
  cycle : Bool := false
  deriving DecidableEq, Inhabited

/-- A table or a column as the target sees it: by schema and name. -/
structure TableName where
  schema : String
  name : String
  deriving DecidableEq, Inhabited

structure ColumnItem where
  name : String
  type : String
  default : Option String
  notNull : Bool
  deriving DecidableEq, Inhabited

inductive Item
  | blank
  | clientEncoding
  /-- Fixed lines. -/
  | remark (text : String)
  | createTablespace (name location : String)
  | createRole (name : String)
  | commentRole (name text : String)
  | createSchema (name : String) (owner : Option String)
  /-- The sequence of an identity is owned by its column. -/
  | createSequence (schema name : String) (options : SequenceOptions)
      (owner : Option (TableName × String))
  | restartSequence (schema name : String) (value : Int)
  | createDomain (schema name base : String)
  | createTable (table : TableName) (columns : List ColumnItem) (tablespace : Option String)
  | commentTable (table : TableName) (text : String)
  | commentColumn (table : TableName) (column text : String)
  | addPrimaryKey (table : TableName) (name : Option String) (columns : List String)
      (tablespace : Option String)
  | addUnique (table : TableName) (name : Option String) (columns : List String)
      (tablespace : Option String)
  | createIndex (unique : Bool) (name : String) (table : TableName) (columns : List IndexColumn)
      (tablespace : Option String)
  /-- The name is written as it is. -/
  | addForeignKey (table : TableName) (name : String) (key : ForeignKey)
  | setDefault (table : TableName) (column schema sequence : String)
  | setValue (table : TableName) (column schema sequence : String)
  /-- The name is written as it is. -/
  | validate (table : TableName) (name : String)
  /-- The condition is written as it is. -/
  | addCheck (table : TableName) (name : Option String) (condition : String)
  | unparsable (problem : String)
  /-- The entries are written as they are. -/
  | searchPath (entries : List String)
  | createView (schema name body : String)
  | commentView (schema name text : String)
  | createFunction (schema name body : String)
  | createTriggerFunction (schema name body : String)
  | commentFunction (schema name text : String)
  deriving DecidableEq, Inhabited

abbrev Script := List Item

namespace TableName

def render (t : TableName) : String := qualifiedName t.schema t.name

end TableName

/-- A text that is given and not empty. -/
def given (text : Option String) : Option String := text.filter (· ≠ "")

/-- A text whose quotes are doubled already. -/
def quotedText (text : String) : String := "'" ++ text ++ "'"

namespace SequenceOptions

def numberLine (keyword : String) (n : Option Int) : List String :=
  (n.map fun n => "  " ++ keyword ++ " " ++ n.repr).toList

def lines (o : SequenceOptions) : List String :=
  numberLine "INCREMENT BY" o.increment ++ numberLine "MINVALUE" o.minValue ++
    numberLine "MAXVALUE" o.maxValue ++ numberLine "START WITH" o.start ++
    numberLine "CACHE" o.cache ++ [if o.cycle then "  CYCLE" else "  NO CYCLE"]

end SequenceOptions

namespace ColumnItem

def render (c : ColumnItem) : String :=
  "  " ++ " ".intercalate
    ([identifier c.name, c.type] ++ (c.default.map ("DEFAULT " ++ ·)).toList ++
      if c.notNull then ["NOT NULL"] else [])

end ColumnItem

namespace Item

/-- Words before a name, or nothing. -/
def clause (words : String) (name : Option String) : String :=
  match name with
  | some name => words ++ " " ++ identifier name
  | none => ""

def indexColumn (c : IndexColumn) : String :=
  match given c.direction with
  | some direction => identifier c.name ++ " " ++ direction
  | none => identifier c.name

def columnList (columns : List IndexColumn) : String :=
  "(" ++ ", ".intercalate (columns.map indexColumn) ++ ")"

def nameList (names : List String) : String := "(" ++ identifierList names ++ ")"

def alter (table : TableName) : String := "ALTER TABLE " ++ table.render

def addKey (table : TableName) (name : Option String) (keyword : String) (columns : List String)
    (tablespace : Option String) : String :=
  alter table ++ " ADD" ++ clause " CONSTRAINT" name ++ keyword ++ nameList columns ++
    clause " USING INDEX TABLESPACE" tablespace ++ ";"

/-- What happens to a row when the row that it refers to is changed. -/
def onChange (event : String) (action : Option String) : String :=
  match given action with
  | some action => event ++ action
  | none => ""

/-- A function body in lines of its own. -/
def functionBody (body : String) : String := " AS\n$func$\n" ++ body ++ "\n$func$;"

/-- The value of a comment and the end of its statement. -/
def isText (text : String) : String := " IS " ++ quotedText text ++ ";"

def render : Item → String
  | blank => ""
  | clientEncoding => "set client_encoding to UTF8;"
  | remark text => text
  | createTablespace name location =>
    s!"CREATE TABLESPACE {identifier name} LOCATION '{location}';"
  | createRole name => s!"CREATE ROLE {identifier name};"
  | commentRole name text => "COMMENT ON ROLE " ++ identifier name ++ isText text
  | createSchema name owner =>
    "CREATE SCHEMA " ++ identifier name ++ clause " AUTHORIZATION" owner ++ ";"
  | createSequence schema name options owner =>
    let ownerLine := owner.map fun (table, column) =>
      s!"  OWNED BY {table.render}.{identifier column}"
    unlines (s!"CREATE SEQUENCE {qualifiedName schema name}" :: options.lines ++
      ownerLine.toList) ++ ";"
  | restartSequence schema name value =>
    s!"ALTER SEQUENCE {qualifiedName schema name} RESTART WITH {value};"
  | createDomain schema name base => s!"CREATE DOMAIN {qualifiedName schema name} AS {base};"
  | createTable table columns tablespace =>
    s!"CREATE TABLE {table.render} (\n" ++ ",\n".intercalate (columns.map ColumnItem.render) ++
      "\n)" ++ clause "\nTABLESPACE" tablespace ++ ";"
  | commentTable table text => "COMMENT ON TABLE " ++ table.render ++ isText text
  | commentColumn table column text =>
    s!"COMMENT ON COLUMN {table.render}.{identifier column}" ++ isText text
  | addPrimaryKey table name columns tablespace =>
    addKey table name " PRIMARY KEY " columns tablespace
  | addUnique table name columns tablespace => addKey table name " UNIQUE " columns tablespace
  | createIndex unique name table columns tablespace =>
    (if unique then "CREATE UNIQUE INDEX " else "CREATE INDEX ") ++ identifier name ++ " ON " ++
      table.render ++ " " ++ columnList columns ++ clause " TABLESPACE" tablespace ++ ";"
  | addForeignKey table name key =>
    alter table ++ " ADD CONSTRAINT " ++ name ++ " FOREIGN KEY " ++ nameList key.columns ++
      " REFERENCES " ++ qualifiedName key.refSchema key.refTable ++ " " ++
      nameList key.refColumns ++ onChange " ON DELETE " key.onDelete ++
      onChange " ON UPDATE " key.onUpdate ++ " NOT VALID;"
  | setDefault table column schema sequence =>
    alter table ++ s!" ALTER COLUMN {identifier column} " ++
      s!"SET DEFAULT nextval('{qualifiedName schema sequence}');"
  | setValue table column schema sequence =>
    s!"SELECT setval('{qualifiedName schema sequence}', " ++
      s!"(SELECT max({identifier column})::bigint FROM {table.render}));"
  | validate table name => alter table ++ " VALIDATE CONSTRAINT " ++ name ++ ";"
  | addCheck table name condition =>
    alter table ++ " ADD" ++ clause " CONSTRAINT" name ++ " CHECK " ++ condition ++ ";"
  | unparsable problem => "-- WARNING: does not parse as PostgreSQL: " ++ problem
  | searchPath entries => "set search_path TO " ++ ", ".intercalate entries ++ ";"
  | createView schema name body =>
    let view := if schema = "" then identifier name else qualifiedName schema name
    s!"CREATE VIEW {view} {body};"
  | commentView schema name text =>
    "COMMENT ON VIEW " ++ qualifiedName schema name ++ isText text
  | createFunction schema name body =>
    "CREATE FUNCTION " ++ qualifiedName schema name ++ functionBody body
  | createTriggerFunction schema name body =>
    "CREATE FUNCTION " ++ qualifiedName schema name ++
      "() RETURNS trigger LANGUAGE plpgsql" ++ functionBody body
  | commentFunction schema name text =>
    "COMMENT ON FUNCTION " ++ qualifiedName schema name ++ "()" ++ isText text

end Item

/-- The items of a script one below the other. -/
def Script.render (s : Script) : String := unlines (s.map Item.render) ++ "\n"

end SchemaTransfer
