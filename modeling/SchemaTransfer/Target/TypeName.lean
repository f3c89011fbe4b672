import SchemaTransfer.Failure
import SchemaTransfer.Target.Identifier
import SchemaTransfer.Text.Numeral
import SchemaTransfer.Text.Scan

/-!
# Column types

Binary large objects become `bytea`; character large objects become `varchar`, or `text` if they
hold more characters than `varchar` accepts. A distinct type becomes the domain of the same name.
Every other type but two keeps its spelling.
-/
namespace SchemaTransfer.TypeName
open Unicode Scan

/-- The most characters that `varchar` accepts. -/
def varcharLimit : Nat := 10485760

def isUnit (c : Char) : Bool :=
  let k := Casing.fold c
  k == 'k' || k == 'm' || k == 'g'

/-- A size in parentheses: its digits and the unit, if there is one. -/
def size? (cs : List Char) : Option (List Char × Option Char) := do
  let cs ← literal? "(" (trimLeft cs)
  let (digits, cs) ← digits? (trimLeft cs)
  match trimLeft cs with
  | [] => none
  | c :: rest =>
    let (unit, rest) := if isUnit c then (some c, rest) else (none, c :: rest)
    let _ ← literal? ")" (trimLeft rest)
    return (digits, unit)

/-- The number of characters in one unit. -/
def multiplier? : Option Char → Option Nat
  | none => some 1
  | some c =>
    match upper [c] with
    | ['K'] => some 1024
    | ['M'] => some (1024 * 1024)
    | ['G'] => some (1024 * 1024 * 1024)
    | _ => none

/-- A name between double quotes that is not empty; of a name of blanks only, one blank counts. -/
def part? (cs : List Char) : Option (String × List Char) := do
  let (text, rest) ← quotedText? cs
  match trimRight text with
  | [] => return (.ofList (text.take 1), rest)
  | name => return (.ofList name, rest)

/-- The schema and the name of a distinct type. -/
def distinct? (cs : List Char) : Option (String × String) := do
  let (schema, cs) ← part? cs
  let cs ← literal? "." (trimLeft cs)
  let (name, cs) ← part? (trimLeft cs)
  match cs with
  | [] => some (schema, name)
  | _ => none

def characterObject (type : String) (digits : List Char) (unit : Option Char) :
    Except Failure (String × List Notice) := do
  let some n := Numeral.natural? digits | throw .longNumber
  let some k := multiplier? unit | throw .unknownUnit
  let size := n * k
  if varcharLimit < size then return ("text", [.longText type size varcharLimit])
  else return (s!"varchar({size})", [])

/-- The target's spelling of a type, with a notice if the type had to give up its limit. -/
def convert (type : List Char) : Except Failure (String × List Notice) :=
  let type := trim type
  let name := String.ofList type
  if ((keyword? "blob" type).bind size?).isSome then
    .ok ("bytea", [])
  else
    match (keyword? "clob" type).bind size? with
    | some (digits, unit) => characterObject name digits unit
    | none =>
      match distinct? type with
      | some (schema, domain) => .ok (qualifiedName schema domain, [])
      | none =>
        let name' := upperCase name
        if name' = "DOUBLE" then .ok ("double precision", [])
        else if name' = "LONG VARCHAR" then .ok ("text", [])
        else .ok (name, [])

end SchemaTransfer.TypeName
