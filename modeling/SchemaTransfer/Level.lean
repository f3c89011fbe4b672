/-!
# Levels of messages

A message is shown on the console if it weighs at least as much as the threshold that was asked
for.
-/
namespace SchemaTransfer

inductive Level
  | debug
  | info
  | warning
  | error
  deriving DecidableEq, Inhabited

namespace Level

def name : Level → String
  | debug => "DEBUG"
  | info => "INFO"
  | warning => "WARNING"
  | error => "ERROR"

def all : List Level := [debug, info, warning, error]

def ofName? (name : String) : Option Level := all.find? fun l => l.name = name

def weight : Level → Nat
  | debug => 0
  | info => 1
  | warning => 2
  | error => 3

instance : LE Level := ⟨fun a b => a.weight ≤ b.weight⟩

instance (a b : Level) : Decidable (a ≤ b) := inferInstanceAs (Decidable (a.weight ≤ b.weight))

/-- A message as it looks on the console, its text behind a column for the level. -/
def line (l : Level) (text : String) : String :=
  l.name ++ String.ofList (List.replicate (8 - l.name.length) ' ') ++ "  " ++ text

end Level

end SchemaTransfer
