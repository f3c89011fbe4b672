import SchemaTransfer.Target.Emission
import SchemaTransfer.Target.Expression
import SchemaTransfer.Target.ForeignKeyName
import SchemaTransfer.Target.SearchPath

/-!
# The script that may need corrections by hand

Validation of the foreign keys, check constraints, views with their comments, functions and
triggers. Check constraints and views are handed to the checker; one that it rejects is written all
the same, under a remark.
-/
namespace SchemaTransfer.Unsure
open Unicode Emit Scan

def header : String :=
  "-- This file probably won't work as is. Try to run it, catch errors, and correct them.\n" ++
    "-- Views, CHECK constraints, functions and triggers are copied from DB2 with only\n" ++
    "-- textual fixes applied."

def banner (objects : String) : String :=
  s!"-- Under this point are {objects}. There is NO WAY they will work as is.\n" ++
    "-- They are only here so that they fail at creation and get corrected by hand."

def preamble : Script :=
  [.remark header, .remark "\\set ECHO errors", .clientEncoding,
   .remark "set search_path TO db2, \"$user\", public;", .blank]

def validations (e : Schema × Table) : Script :=
  e.2.namedForeignKeys.map fun k => .validate ⟨e.1.name, e.2.name⟩ k.2

/-- A condition between parentheses, which it may bring with it. -/
def enclosed (condition : String) : String :=
  let cs := condition.toList
  if cs.head? = some '(' && cs.getLast? = some ')' then condition else "(" ++ condition ++ ")"

def check (s : Schema) (t : Table) (k : Check) : Emit Script := do
  let table : TableName := ⟨s.name, t.name⟩
  let condition := enclosed k.condition
  count fun t => { t with checkConstraints := t.checkConstraints + 1 }
  checked (.addCheck table (given k.name) condition) s!"CHECK constraint on {s.name}.{t.name}"
    s!"SELECT 1 FROM {table.render} WHERE {condition}"

def checks (e : Schema × Table) : Emit Script := each (check e.1 e.2) e.2.checks

/-- What may end a view: blanks, and a check option before them. -/
def queryEnd? (cs : List Char) : Option Unit :=
  (do
    let cs ← blanks? cs
    let cs ← keyword? "with" cs
    let cs ← blanks? cs
    let cs := optional (fun cs =>
      ((keyword? "cascaded" cs).bind blanks?).or ((keyword? "local" cs).bind blanks?)) cs
    let cs ← keyword? "check" cs
    let cs ← blanks? cs
    let cs ← keyword? "option" cs
    finish? cs) <|> finish? cs

/-- The text up to the first place where a view may end. -/
def beforeEnd : List Char → List Char
  | [] => []
  | c :: cs => if (queryEnd? (c :: cs)).isSome then [] else c :: beforeEnd cs

/-- The query of a view's body: what stands behind the list of columns and `AS`. -/
def query? (body : List Char) : Option (List Char) := do
  let cs := trimLeft body
  let cs := optional (fun cs => do
    let cs ← literal? "(" cs
    let cs ← literal? ")" (cs.dropWhile (· != ')'))
    return trimLeft cs) cs
  let cs ← keyword? "as" cs
  let cs ← blanks? cs
  return beforeEnd cs

/-- A statement without the semicolons and blanks at its end. -/
def bare (sql : String) : String :=
  .ofList ((trimRight sql.toList).reverse.dropWhile (· == ';')).reverse

def view (v : View) : Emit Script := do
  let body := adaptExpression v.statement
  let item := Item.createView v.schema v.name body
  count fun t => { t with views := t.views + 1 }
  let text := match query? body.toList with
    | some query => .ofList query
    | none => bare item.render
  let items ← checked item s!"View {v.schema}.{v.name}" text
  return .searchPath (SearchPath.entries v.context) :: items

def viewComments (s : Schema) : Script :=
  s.viewComments.entries.map (fun e => Item.commentView s.name e.1 e.2) ++
    s.viewColumnComments.entries.flatMap fun e =>
      e.2.entries.map fun k => Item.commentColumn ⟨s.name, e.1⟩ k.1 k.2

def function (s : Schema) (f : Routine) : Emit Script := do
  count fun t => { t with functions := t.functions + 1 }
  return [.createFunction s.name f.name f.statement]

/-- A trigger becomes a function, to which the trigger itself has to be added. -/
def trigger (s : Schema) (e : String × Trigger) : Emit Script := do
  let name := e.1 ++ "_fn"
  count fun t => { t with triggers := t.triggers + 1 }
  return .createTriggerFunction s.name name e.2.statement ::
    (e.2.comment.map (Item.commentFunction s.name name)).toList ++
    [.remark "-- Add the CREATE TRIGGER too!", .blank]

end Unsure

open Emit in
/-- The script with everything that is copied rather than converted. -/
def emitUnsure (c : Catalog) : Emit Script := do
  let checks ← each Unsure.checks c.tables
  let views ← each Unsure.view c.views
  let functions ← each (fun s => each (Unsure.function s) s.routines.values) c.schemas.values
  let triggers ← each (fun s => each (Unsure.trigger s) s.triggers.entries) c.schemas.values
  return Unsure.preamble ++ c.tables.flatMap Unsure.validations ++ checks ++ [.blank] ++
    views ++ c.schemas.values.flatMap Unsure.viewComments ++ [.blank] ++
    [.remark (Unsure.banner "functions")] ++ functions ++ [.blank] ++
    [.remark (Unsure.banner "triggers")] ++ triggers

end SchemaTransfer
