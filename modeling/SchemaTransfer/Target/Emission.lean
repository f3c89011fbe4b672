import SchemaTransfer.Failure
import SchemaTransfer.Target.Names
import SchemaTransfer.Target.Script
import SchemaTransfer.Text.Scan

/-!
# State of an emission

While scripts are emitted, names are given out, statements are counted, notices are collected and
texts are handed to a checker of the target's language. The verdicts of the checker are part of
the state: each check takes the next one, and accepts when none is left.
-/
namespace SchemaTransfer
open Unicode

/-- Statements put into the scripts, by their kind. -/
structure Tally where
  tablespaces : Nat := 0
  roles : Nat := 0
  schemas : Nat := 0
  sequences : Nat := 0
  domains : Nat := 0
  tables : Nat := 0
  primaryKeys : Nat := 0
  uniqueConstraints : Nat := 0
  indexes : Nat := 0
  foreignKeys : Nat := 0
  identities : Nat := 0
  checkConstraints : Nat := 0
  views : Nat := 0
  functions : Nat := 0
  triggers : Nat := 0
  probeFailures : Nat := 0
  deriving DecidableEq, Inhabited

/-- What a checker says about a text. -/
inductive Verdict
  | accepted
  | rejected (kind message : String)
  deriving DecidableEq, Inhabited

/-- The first line of what a checker says against a text, or the kind of the problem if it says
nothing. -/
def Verdict.problem? : Verdict → Option String
  | .accepted => none
  | .rejected kind message =>
    some (if message = "" then kind else .ofList (Lines.firstLine message.toList))

structure Emission where
  names : Names := {}
  tally : Tally := {}
  notices : List Notice := []
  /-- The verdicts of the checks to come. -/
  verdicts : List Verdict := []
  /-- The texts that were checked, in their order. -/
  probed : List String := []
  deriving DecidableEq, Inhabited

abbrev Emit := StateM Emission

namespace Emit

/-- Takes a free name in a schema. -/
def resolve (schema desired kind : String) : Emit String := fun e =>
  let (name, names, notices) := e.names.resolve schema desired kind
  (name, { e with names, notices := e.notices ++ notices })

def notice (n : Notice) : Emit Unit := modify fun e => { e with notices := e.notices ++ [n] }

def count (f : Tally → Tally) : Emit Unit := modify fun e => { e with tally := f e.tally }

/-- Hands a text to the checker. -/
def probe (sql : String) : Emit (Option String) := fun e =>
  ((e.verdicts.headD .accepted).problem?,
    { e with verdicts := e.verdicts.tail, probed := e.probed ++ [sql] })

/-- The items for the members of a list, one member after the other. -/
def each {α : Type} (f : α → Emit Script) : List α → Emit Script
  | [] => pure []
  | a :: rest => do
    let items ← f a
    let more ← each f rest
    return items ++ more

/-- A statement, under a remark if the checker finds a problem in `text`. -/
def checked (item : Item) (object text : String) : Emit Script := do
  match ← probe text with
  | none => return [item]
  | some problem =>
    notice (.unparsable object problem)
    count fun t => { t with probeFailures := t.probeFailures + 1 }
    return [.unparsable problem, item]

end Emit

end SchemaTransfer
