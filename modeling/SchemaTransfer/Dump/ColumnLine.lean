import SchemaTransfer.Text.Scan

/-!
# Column lines of a table

A line declares one column: its name, its type, `NOT NULL`, one clause about its values, and a
comma or the parenthesis that closes the list. The type and the default value are not delimited;
each is the shortest text after which the line goes on in the expected way. What they may be is
decided afterwards, by `isType` and `isDefault`.
-/
namespace SchemaTransfer.Dump
open Unicode Scan

/-- What a column line says about the values of its column. -/
inductive ValueClause
  | nothing
  | implicitDefault
  | default (text : List Char)
  /-- The options of the identity stand on the lines that follow. -/
  | identity (always : Bool)
  | generated (always : Bool) (expression : List Char)
  deriving DecidableEq, Inhabited

structure ColumnLine where
  name : String
  type : List Char
  notNull : Bool
  clause : ValueClause
  /-- The line closes the list of columns. -/
  closes : Bool
  deriving DecidableEq, Inhabited

namespace ColumnLine

/-- A comma or a closing parenthesis at the end of a line; `true` for the parenthesis. -/
def separator? : List Char → Option Bool
  | ',' :: cs => if allBlank cs then some false else none
  | ')' :: cs => if allBlank cs then some true else none
  | _ => none

/-- The end of a line, with a separator behind blanks or without one. -/
def lineEnd? (cs : List Char) : Option Bool :=
  ((blanks? cs).bind separator?).or (if allBlank cs then some false else none)

/-- A value and the end of the line. A lone separator is no value. -/
def defaultText? (cs : List Char) : Option (List Char × Bool) :=
  if (separator? cs).isSome then none else shortest? lineEnd? cs

def withDefault? (cs : List Char) : Option (ValueClause × Bool) := do
  let cs ← blanks? cs
  let cs ← literal? "WITH DEFAULT" cs
  match afterBlanks? defaultText? cs with
  | some (text, closes) => return (.default text, closes)
  | none => return (.implicitDefault, ← lineEnd? cs)

/-- `GENERATED`, with whether it is `ALWAYS` and not `BY DEFAULT`, up to `AS `. -/
def generated? (cs : List Char) : Option (Bool × List Char) := do
  let cs ← blanks? cs
  let cs ← literal? "GENERATED " cs
  let (mode, cs) ← oneOf? ["BY DEFAULT", "ALWAYS"] cs
  let cs ← literal? " AS " cs
  return (mode == "ALWAYS", cs)

def identity? (cs : List Char) : Option (ValueClause × Bool) := do
  let (always, cs) ← generated? cs
  let cs ← literal? "IDENTITY" cs
  let cs ← literal? "(" (trimLeft cs)
  return (.identity always, ← lineEnd? cs)

/-- The expression ends before the first parenthesis that may end the line. -/
def expression? (cs : List Char) : Option (ValueClause × Bool) := do
  let (always, cs) ← generated? cs
  let cs ← literal? "(" cs
  let (text, closes) ← shortest? (fun cs => (literal? ")" cs).bind lineEnd?) cs
  return (.generated always text, closes)

def clause? (cs : List Char) : Option (ValueClause × Bool) :=
  withDefault? cs <|> identity? cs <|> expression? cs <|> (lineEnd? cs).map (.nothing, ·)

/-- What stands behind the type. -/
def attributes? (cs : List Char) : Option (Bool × ValueClause × Bool) :=
  (do
    let cs ← blanks? cs
    let cs ← literal? "NOT NULL" cs
    return (true, ← clause? cs)) <|> (clause? cs).map (false, ·)

def ofLine? (line : List Char) : Option ColumnLine := do
  let (name, cs) ← name? (trimLeft line)
  let (type, notNull, clause, closes) ← afterBlanks? (shortestNonempty? attributes?) cs
  return ⟨name, trim type, notNull, clause, closes⟩

/-- The keywords of the built-in types. -/
def typeKeywords : List String :=
  ["SMALLINT", "INTEGER", "INT", "BIGINT", "DECIMAL", "DEC", "NUMERIC", "NUM", "REAL", "DOUBLE",
   "FLOAT", "DECFLOAT", "BOOLEAN", "CHARACTER", "CHAR", "VARCHAR", "LONG VARCHAR", "CLOB",
   "GRAPHIC", "VARGRAPHIC", "LONG VARGRAPHIC", "DBCLOB", "BINARY", "VARBINARY", "BLOB", "DATE",
   "TIMESTAMP", "TIME", "XML"]

/-- Options that consist of fixed words. -/
def fixedOptions : List String :=
  ["FOR BIT DATA", "FOR SBCS DATA", "FOR MIXED DATA", "NOT LOGGED", "LOGGED", "NOT COMPACT",
   "COMPACT"]

def option? (cs : List Char) : Option (List Char) :=
  (oneOf? fixedOptions cs).map (·.2) <|>
    ((literal? "INLINE LENGTH " cs).bind digits?).map (·.2) <|> do
      let cs ← literal? "CCSID " cs
      if wordEnds cs then none else return cs.dropWhile isWord

/-- Whether a text consists of at most `bound` options, each behind blanks. -/
def areOptions : (bound : Nat) → List Char → Bool
  | _, [] => true
  | 0, _ => false
  | bound + 1, cs =>
    match (blanks? cs).bind option? with
    | some rest => areOptions bound rest
    | none => false

/-- An argument in parentheses, up to the first closing one. -/
def argument? (cs : List Char) : Option (List Char) := do
  let cs ← literal? "(" (trimLeft cs)
  literal? ")" (cs.dropWhile (· != ')'))

def isTypeTail (cs : List Char) : Bool :=
  let cs := optional argument? cs
  areOptions cs.length cs

/-- Two texts between double quotes with a point between them. -/
def isDistinctType (cs : List Char) : Bool :=
  (do
    let (_, cs) ← quotedText? cs
    let cs ← literal? "." (trimLeft cs)
    let (_, cs) ← quotedText? (trimLeft cs)
    if cs.isEmpty then some () else none).isSome

/-- Whether a text is a distinct type, or a built-in type with an argument and options. -/
def isType (cs : List Char) : Bool :=
  isDistinctType cs || typeKeywords.any fun w => ((literal? w cs).map isTypeTail).getD false

/-- A literal between single quotes with nothing behind it. -/
def isString : List Char → Bool
  | '\'' :: cs => go cs
  | _ => false
where
  /-- The opening quote has been passed. -/
  go : List Char → Bool
    | [] => false
    | '\'' :: '\'' :: cs => go cs
    | '\'' :: cs => cs.isEmpty
    | _ :: cs => go cs

def sign (cs : List Char) : List Char := optional (fun cs => (oneOf? ["-", "+"] cs).map (·.2)) cs

/-- A decimal number with a sign, a fraction and an exponent or without them. -/
def isNumber (cs : List Char) : Bool :=
  match digits? (sign cs) with
  | none => false
  | some (_, cs) =>
    let cs := optional (fun cs => (literal? "." cs).map (·.dropWhile isDigit)) cs
    let cs := optional (fun cs => do
      let cs ← literal? "E" cs
      let (_, cs) ← digits? (sign cs)
      return cs) cs
    cs.isEmpty

/-- A hexadecimal or graphic string. -/
def isTaggedString (cs : List Char) : Bool :=
  match oneOf? ["X'", "G'"] cs with
  | some (_, cs) => cs.dropWhile (· != '\'') == ['\'']
  | none => false

def registers : List String :=
  ["DATE", "TIMESTAMP", "TIMEZONE", "TIME", "USER", "SCHEMA", "PATH", "SERVER"]

/-- A special register, with a precision or without one. -/
def isRegister (cs : List Char) : Bool :=
  match oneOf? ["CURRENT ", "CURRENT_"] cs with
  | none => false
  | some (_, cs) =>
    match oneOf? registers cs with
    | none => false
    | some (_, cs) =>
      let cs := optional (fun cs => do
        let cs ← literal? "(" (trimLeft cs)
        let (_, cs) ← digits? (trimLeft cs)
        literal? ")" (trimLeft cs)) cs
      cs.isEmpty

/-- A function name: quoted, or in upper case. -/
def functionName? (cs : List Char) : Option (List Char) :=
  match cs with
  | '"' :: _ => (quotedText? cs).map (·.2)
  | c :: cs => if ('A' ≤ c && c ≤ 'Z') || c == '_' then some (cs.dropWhile isWord) else none
  | [] => none

/-- A function call on one line, the function's schema before its name or not. -/
def isCall (cs : List Char) : Bool :=
  let cs := optional (fun cs => do
    let (_, cs) ← quotedText? cs
    let cs ← literal? "." (trimLeft cs)
    return trimLeft cs) cs
  match (functionName? cs).bind fun cs => literal? "(" (trimLeft cs) with
  | some cs => cs.getLast? == some ')' && !cs.contains '\n'
  | none => false

/-- Whether a text is a default value that a dump may hold. -/
def isDefault (cs : List Char) : Bool :=
  isString cs || isNumber cs || isTaggedString cs ||
    ["NULL", "USER", "SESSION_USER", "SYSTEM_USER"].contains (String.ofList cs) ||
    isRegister cs || isCall cs

end ColumnLine

end SchemaTransfer.Dump
