import SchemaTransfer.Dump.Form

/-!
# First lines of statements

One recognizer for each form, tried in a fixed order on the line without the blanks before it.
Keywords are in upper case and one space apart, except in the statements that are dumped as a user
typed them: views, triggers and functions.
-/
namespace SchemaTransfer.Dump.FirstLine
open Unicode Scan

/-- Statements without meaning for the target. -/
def ignoredStarts : List String :=
  ["CREATE BUFFERPOOL", "CONNECT TO", "CONNECT RESET", "ALTER TABLESPACE", "COMMIT WORK",
   "TERMINATE"]

def startsWithWords (ws : List String) (cs : List Char) : Bool :=
  ws.any fun w => ((literal? w cs).map wordEnds).getD false

def ignoredStart? (cs : List Char) : Option Form :=
  if startsWithWords ignoredStarts cs then some .ignored else none

def tablespaceStarts : List String :=
  ["CREATE TABLESPACE ", "CREATE REGULAR TABLESPACE ", "CREATE LARGE TABLESPACE ",
   "CREATE TEMPORARY TABLESPACE ", "CREATE USER TEMPORARY TABLESPACE ",
   "CREATE SYSTEM TEMPORARY TABLESPACE "]

/-- What follows the name is not looked at. -/
def createTablespace? (cs : List Char) : Option Form := do
  let (_, cs) ← oneOf? tablespaceStarts cs
  let (name, _) ← name? cs
  return .createTablespace name

def createRole? (cs : List Char) : Option Form := do
  let cs ← literal? "CREATE ROLE " cs
  let (name, cs) ← name? cs
  finish? cs
  return .createRole name

/-- The text of a comment, without its opening quote. -/
def commentText? (cs : List Char) : Option (List Char) := do
  let cs ← blanks? cs
  let cs ← literal? "IS '" cs
  lastLine? cs

def commentRole? (cs : List Char) : Option Form := do
  let cs ← literal? "COMMENT ON ROLE " cs
  let (name, cs) ← name? cs
  return .commentRole name (← commentText? cs)

def createSchema? (cs : List Char) : Option Form := do
  let cs ← literal? "CREATE SCHEMA " cs
  let (name, cs) ← name? cs
  if allBlank cs then return .createSchema name none
  let cs ← blanks? cs
  let cs ← literal? "AUTHORIZATION" cs
  let cs ← blanks? cs
  let (owner, cs) ← name? cs
  finish? cs
  return .createSchema name (some owner)

/-- The type of a sequence's values: an integer type or a decimal without a fraction. -/
def sequenceType? (cs : List Char) : Option (List Char) :=
  (oneOf? ["SMALLINT", "INTEGER", "BIGINT"] cs).map (·.2) <|> do
    let cs ← literal? "DECIMAL" cs
    let cs ← literal? "(" (trimLeft cs)
    let (_, cs) ← digits? (trimLeft cs)
    let cs := trimLeft cs
    let cs := optional (fun cs => do
      let cs ← literal? "," cs
      let cs ← literal? "0" (trimLeft cs)
      return trimLeft cs) cs
    literal? ")" cs

def createSequence? (cs : List Char) : Option Form := do
  let cs ← literal? "CREATE SEQUENCE " cs
  let ((schema, name), cs) ← qualified? cs
  if allBlank cs then return .createSequence schema name
  let cs ← blanks? cs
  let cs ← literal? "AS" cs
  let cs ← blanks? cs
  let cs ← sequenceType? cs
  finish? cs
  return .createSequence schema name

/-- The value of a restart, up to the end of the line. -/
def restartValue? (cs : List Char) : Option (List Char) := do
  let cs ← blanks? cs
  let cs ← literal? "RESTART WITH " cs
  let (value, cs) ← number? cs
  finish? cs
  return value

def restartSequence? (cs : List Char) : Option Form := do
  let cs ← literal? "ALTER SEQUENCE " cs
  let ((schema, name), cs) ← qualified? cs
  return .restartSequence schema name (← restartValue? cs)

def createTable? (cs : List Char) : Option Form := do
  let cs ← literal? "CREATE TABLE " cs
  let ((schema, name), cs) ← qualified? cs
  let cs ← literal? "(" (trimLeft cs)
  finish? cs
  return .createTable schema name

def alterTable? (cs : List Char) : Option Form := do
  let cs ← literal? "ALTER TABLE " cs
  let ((schema, name), cs) ← qualified? cs
  finish? cs
  return .alterTable schema name

def restartIdentity? (cs : List Char) : Option Form := do
  let cs ← literal? "ALTER TABLE " cs
  let ((schema, owner), cs) ← qualified? cs
  let cs ← blanks? cs
  let cs ← literal? "ALTER COLUMN " cs
  let (column, cs) ← name? cs
  return .restartIdentity schema owner column (← restartValue? cs)

/-- A change of a table's free space. -/
def freeSpace? (cs : List Char) : Option Form := do
  let cs ← literal? "ALTER TABLE " cs
  let _ ← search? (fun cs => (literal? " PCTFREE " cs).bind digits?) (cs.takeWhile (· != '\n'))
  return .ignored

def createIndex? (cs : List Char) : Option Form := do
  let cs ← literal? "CREATE " cs
  let unique := literal? "UNIQUE " cs
  let cs ← literal? "INDEX " (unique.getD cs)
  let ((indexSchema, name), cs) ← qualified? cs
  let cs ← blanks? cs
  let cs ← literal? "ON" cs
  let cs ← blanks? cs
  let ((schema, owner), cs) ← qualified? cs
  finish? cs
  return .createIndex unique.isSome indexSchema name schema owner

def commentColumn? (cs : List Char) : Option Form := do
  let cs ← literal? "COMMENT ON COLUMN " cs
  let ((schema, owner), cs) ← qualified? cs
  let cs ← literal? "." cs
  let (column, cs) ← name? cs
  return .commentColumn schema owner column (← commentText? cs)

def commentTable? (cs : List Char) : Option Form := do
  let cs ← literal? "COMMENT ON TABLE " cs
  let ((schema, name), cs) ← qualified? cs
  return .commentTable schema name (← commentText? cs)

/-- The end of a distinct type, which may tell that its values can be compared. -/
def domainEnd? (cs : List Char) : Option Unit :=
  (do
    let cs ← blanks? cs
    let cs ← literal? "WITH COMPARISONS" cs
    finish? cs) <|> finish? cs

def createDomain? (cs : List Char) : Option Form := do
  let cs ← literal? "CREATE DISTINCT TYPE " cs
  let ((schema, name), cs) ← qualified? cs
  let cs ← blanks? cs
  let cs ← literal? "AS" cs
  let cs ← blanks? cs
  let cs ← literal? "\"SYSIBM" cs
  let cs ← literal? "\"." (trimLeft cs)
  let (base, _) ← shortestNonempty? domainEnd? cs
  return .createDomain schema name base

/-- The name may stand between double quotes, of which each is optional. -/
def setSchema? (cs : List Char) : Option Form := do
  let cs ← literal? "SET CURRENT SCHEMA" cs
  let cs ← literal? "=" (trimLeft cs)
  let cs := optional (literal? "\"") (trimLeft cs)
  finish? (cs.dropWhile (· != '"')).tail
  return .setSchema (.ofList (trimRight (cs.takeWhile (· != '"'))))

/-- Where all is blank, the path is the last blank that is no line feed. -/
def setPath? (cs : List Char) : Option Form := do
  let cs ← literal? "SET CURRENT PATH" cs
  let cs ← literal? "=" (trimLeft cs)
  if allBlank cs then
    let c ← (cs.filter (· != '\n')).getLast?
    return .setPath (.ofList [c])
  else
    let path := trim cs
    if path.contains '\n' then none else return .setPath (.ofList path)

/-- A letter of a keyword or an underscore. -/
def startsName (c : Char) : Bool :=
  let k := Casing.fold c
  ('a' ≤ k && k ≤ 'z') || k == '_'

def continuesName (c : Char) : Bool := isWord c || c == '$' || c == '#' || c == '@'

/-- A name as a user types it, with or without quotes. -/
def token? (cs : List Char) : Option (NameToken × List Char) :=
  match cs with
  | '"' :: _ => (quotedText? cs).map fun (text, rest) => (.quoted text, rest)
  | c :: rest =>
    if startsName c then
      some (.plain (c :: rest.takeWhile continuesName), rest.dropWhile continuesName)
    else none
  | [] => none

/-- One name, or two with a point between them. -/
def tokens? (cs : List Char) : Option ((Option NameToken × NameToken) × List Char) := do
  let (first, rest) ← token? cs
  let second := do
    let cs ← literal? "." (trimLeft rest)
    token? (trimLeft cs)
  match second with
  | some (name, rest) => return ((some first, name), rest)
  | none => return ((none, first), rest)

/-- The names in a `CREATE [OR REPLACE]` statement for an object of some kind, and what follows
them. -/
def typed? (object : String) (cs : List Char) :
    Option ((Option NameToken × NameToken) × List Char) := do
  let cs ← keyword? "create" cs
  let cs ← blanks? cs
  let cs := optional (fun cs => do
    let cs ← keyword? "or" cs
    let cs ← blanks? cs
    let cs ← keyword? "replace" cs
    blanks? cs) cs
  let cs ← keyword? object cs
  let cs ← blanks? cs
  tokens? cs

def createView? (cs : List Char) : Option Form := do
  let ((schema, name), rest) ← typed? "view" cs
  return .createView schema name (← lastLine? (trimLeft rest))

def createTrigger? (cs : List Char) : Option Form := do
  let ((schema, name), rest) ← typed? "trigger" cs
  return .createTrigger schema name (← lastLine? (trimLeft rest))

def commentTrigger? (cs : List Char) : Option Form := do
  let cs ← literal? "COMMENT ON TRIGGER " cs
  let (schema, cs) ← name? cs
  let cs ← literal? "." (trimLeft cs)
  let (name, cs) ← name? cs
  return .commentTrigger schema name (← commentText? cs)

def createFunction? (cs : List Char) : Option Form := do
  let ((schema, name), rest) ← typed? "function" cs
  return .createFunction schema name (← lastLine? rest)

/-- Privileges have no counterpart in the target. -/
def grant? (cs : List Char) : Option Form :=
  if startsWithWords ["GRANT"] cs then some .ignored else none

def recognizers : List (List Char → Option Form) :=
  [ignoredStart?, createTablespace?, createRole?, commentRole?, createSchema?, createSequence?,
   restartSequence?, createTable?, alterTable?, restartIdentity?, freeSpace?, createIndex?,
   commentColumn?, commentTable?, createDomain?, setSchema?, setPath?, createView?,
   createTrigger?, commentTrigger?, createFunction?, grant?]

end FirstLine

/-- The form of a statement with this first line, if it has one. -/
def Form.ofLine? (line : List Char) : Option Form :=
  FirstLine.recognizers.findSome? fun recognize => recognize (Unicode.trimLeft line)

end SchemaTransfer.Dump
