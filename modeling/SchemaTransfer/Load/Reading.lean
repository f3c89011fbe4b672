import SchemaTransfer.Dump.ConstraintLine
import SchemaTransfer.Catalog.Basic
import SchemaTransfer.Failure
import SchemaTransfer.Notice
import SchemaTransfer.Text.Numeral

/-!
# Reading the lines of a statement

A reading holds what was built, which stays as it is when the reading fails, and the lines that
are left over when it does not.
-/
namespace SchemaTransfer.Load
open Unicode

/-- A thing worth reporting, in the order in which it is met. -/
inductive Event
  /-- A name as it is written. -/
  | name (written : String)
  | notice (notice : Notice)
  deriving DecidableEq

def nameEvents (name : Option String) : List Event := name.toList.map .name

structure Reading (α : Type) where
  value : α
  events : List Event := []
  outcome : Except Failure (List (List Char))

namespace Reading

variable {α β : Type}

def fail (value : α) (failure : Failure) : Reading α := ⟨value, [], .error failure⟩

def malformed (value : α) (cause : Malformed) : Reading α := fail value (.malformed cause)

def unrecognized (value : α) (cause : Unrecognized) : Reading α := fail value (.unrecognized cause)

/-- The reading whose lines have all been read. -/
def done (value : α) : Reading α := ⟨value, [], .ok []⟩

/-- No line may be left over. -/
def expectEnd (value : α) (statement : String) (number : Nat) (lines : List (List Char)) :
    Reading α :=
  if lines.isEmpty then done value else malformed value (.overflow statement number lines)

def map (f : α → β) (r : Reading α) : Reading β := ⟨f r.value, r.events, r.outcome⟩

/-- Puts events in front of those of a reading. -/
def after (events : List Event) (r : Reading α) : Reading α :=
  { r with events := events ++ r.events }

/-- The reading of all lines or of nothing. -/
def ofExcept (value : α) : Except Failure α → Reading α
  | .ok a => done a
  | .error failure => fail value failure

end Reading

/-- The number that a numeral denotes. -/
def integer (numeral : List Char) : Except Failure Int :=
  match Numeral.integer? numeral with
  | some n => .ok n
  | none => .error .longNumber

open Dump in
/-- Reads a list of columns up to the line that closes it. Directions are accepted only where
`directed` says so. -/
def columnList (context : String) (directed : Bool) :
    List (List Char) → Except Failure (List IndexColumn × List (List Char))
  | [] => .error (.malformed (.listUnterminated context))
  | line :: rest =>
    match ListItem.ofLine? line with
    | none => .error (.malformed (.listItem line context))
    | some item =>
      if item.direction.isSome && !directed then
        .error (.malformed (.listItem line context))
      else
        let column : IndexColumn := ⟨item.name, item.direction⟩
        if item.closes then .ok ([column], rest)
        else
          match columnList context directed rest with
          | .ok (columns, rest) => .ok (column :: columns, rest)
          | .error failure => .error failure

/-- As `columnList`, for columns without directions. -/
def nameList (context : String) (lines : List (List Char)) :
    Except Failure (List String × List (List Char)) :=
  (columnList context false lines).map fun (columns, rest) => (columns.map (·.name), rest)

end SchemaTransfer.Load
