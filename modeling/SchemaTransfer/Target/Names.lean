import SchemaTransfer.Keyed
import SchemaTransfer.Target.Identifier

/-!
# Names given out in the target

Tables, sequences, indexes and the indexes behind keys share one set of names per schema. A name
that is taken already is replaced: by the name with the kind of the object behind it, or else by
the name with the smallest number that makes it free. Tables keep their names, so they are entered
before the first request. Schemas and names are compared in their normalized form.
-/
namespace SchemaTransfer

structure Rename where
  schema : String
  kind : String
  wanted : String
  chosen : String
  deriving DecidableEq, Inhabited

structure Names where
  /-- For each schema the names that are taken, with the kind of what they name. -/
  registry : Keyed (Keyed String) := .empty
  /-- In the order of the requests. -/
  renames : List Rename := []
  /-- Schemas and names of tables that are entered at the first request. -/
  pending : List (String × String) := []
  deriving DecidableEq, Inhabited

namespace Names

/-- No name is taken but those of the given tables. -/
def ofTables (tables : List (String × String)) : Names := { pending := tables }

/-- The names taken in a schema. -/
def taken (n : Names) (schema : String) : Keyed String :=
  (n.registry.get? (normalize schema)).getD .empty

/-- Takes a normalized name in a schema. -/
def enter (n : Names) (schema name kind : String) : Names :=
  { n with registry := n.registry.insert (normalize schema) ((n.taken schema).insert name kind) }

/-- Gives a schema an entry if it has none. -/
def mention (n : Names) (schema : String) : Names :=
  { n with registry := n.registry.insert (normalize schema) (n.taken schema) }

/-- Enters the tables, if that was not done before. -/
def settle (n : Names) : Names :=
  n.pending.foldl (fun m t => m.enter t.1 (normalize t.2) "table") { n with pending := [] }

def isTaken (n : Names) (schema name : String) : Bool × Names :=
  let n := n.settle
  ((n.taken schema).contains (normalize name), n.mention schema)

/-- Takes a name whether it is free or not. -/
def register (n : Names) (schema name kind : String) : String × Names :=
  let name := normalize name
  (name, n.settle.enter schema name kind)

/-- The first of `base1`, `base2`, … that is not taken, of which at most `bound` are tried. -/
def numbered (isTaken : String → Bool) (base : String) (bound : Nat) : String :=
  (((List.range bound).map fun k => base ++ (k + 1).repr).find? fun c => !isTaken c).getD base

/-- The free name closest to the one that is wanted. -/
def closest (taken : Keyed String) (wanted kind : String) : String :=
  let withKind := wanted ++ "_" ++ lowerCase kind
  if !taken.contains wanted then wanted
  else if !taken.contains withKind then withKind
  else numbered taken.contains wanted (taken.size + 1)

/-- Takes a free name for an object, as close to the desired one as possible. -/
def resolve (n : Names) (schema desired kind : String) : String × Names × List Notice :=
  let n := n.settle
  let wanted := normalize desired
  let chosen := closest (n.taken schema) wanted kind
  let n' := n.enter schema chosen kind
  if chosen = wanted then (chosen, n', [])
  else
    (chosen, { n' with renames := n'.renames ++ [⟨schema, kind, wanted, chosen⟩] },
      [.renamed schema kind wanted chosen])

end Names

end SchemaTransfer
