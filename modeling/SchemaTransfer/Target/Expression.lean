import SchemaTransfer.Target.DefaultValue
import SchemaTransfer.Text.Replace
import SchemaTransfer.Text.Segment

/-!
# Expressions

Default values and the bodies of views are adapted by a few textual rules. The result is a
guess: nothing here reads the expression as a language. Six rules leave single-quoted literals
alone; the last, which drops `WITH ROW MOVEMENT`, applies to the whole text.
-/
namespace SchemaTransfer.Expression
open Unicode Scan

structure Rule where
  /-- What follows the part to be replaced. -/
  pattern : List Char → Option (List Char)
  new : String

/-- Two keywords with blanks between them, where a word ends. -/
def twoWords (first second : String) (cs : List Char) : Option (List Char) := do
  let cs ← keyword? first cs
  let cs ← blanks? cs
  let cs ← keyword? second cs
  if wordEnds cs then some cs else none

/-- A function name and its opening parenthesis. -/
def call (name : String) (cs : List Char) : Option (List Char) := do
  let cs ← keyword? name cs
  literal? "(" (trimLeft cs)

/-- The rules for text outside literals, in the order in which they apply. -/
def rules : List Rule :=
  [⟨twoWords "current" "date", "current_date"⟩,
   ⟨twoWords "current" "timestamp", "current_timestamp"⟩,
   ⟨call "year", "extract (YEAR FROM "⟩,
   ⟨call "ucase", "upper("⟩,
   ⟨call "lcase", "lower("⟩,
   ⟨call "char", "to_char("⟩]

def Rule.apply (r : Rule) (cs : List Char) : List Char := Replace.words r.pattern r.new cs

/-- A `WITH [NO] ROW MOVEMENT` clause with the blanks before it. -/
def rowMovement (cs : List Char) : Option (List Char) := do
  let cs ← keyword? "with" (trimLeft cs)
  let cs ← blanks? cs
  let cs := optional (fun cs => (keyword? "no" cs).bind blanks?) cs
  let cs ← keyword? "row" cs
  let cs ← blanks? cs
  let cs ← keyword? "movement" cs
  if wordEnds cs then some cs else none

/-- Every line end becomes a space. -/
def onOneLine : List Char → List Char
  | [] => []
  | '\r' :: '\n' :: cs => ' ' :: onOneLine cs
  | '\n' :: cs => ' ' :: onOneLine cs
  | c :: cs => c :: onOneLine cs

/-- The text that marks the literal of an empty binary object. -/
def emptyBinary : String := "\"SYSIBM\".\"BLOB\""

/-- The rules, one after the other, each outside the literals of the text it finds. -/
def applyRules (cs : List Char) : List Char :=
  rules.foldl (fun cs r => outsideLiterals r.apply cs) cs

def adapt (cs : List Char) : List Char :=
  if occurs emptyBinary cs then ['\'', '\'']
  else Replace.all rowMovement "" (applyRules (onOneLine cs))

end SchemaTransfer.Expression

namespace SchemaTransfer

/-- An expression as the target is expected to understand it. -/
def adaptExpression (s : String) : String := .ofList (Expression.adapt s.toList)

/-- The default value that a column is created with. -/
def Column.defaultValue? (c : Column) : Except Failure (Option String) :=
  match c.default with
  | none => .ok none
  | some .implicit => (DefaultValue.implicit c.dumpType).map some
  | some (.text text) => .ok (some (adaptExpression text))

end SchemaTransfer
