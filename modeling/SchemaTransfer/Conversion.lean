import SchemaTransfer.Load.Session
import SchemaTransfer.Target.After
import SchemaTransfer.Target.Before
import SchemaTransfer.Target.Unsure

/-!
# Conversion of a dump

A dump is loaded and the three scripts are emitted, with one set of names for all of them. The
first failure stops the conversion.
-/
namespace SchemaTransfer

/-- The three scripts. -/
structure Scripts where
  before : Script
  after : Script
  unsure : Script
  deriving DecidableEq, Inhabited

/-- The state to start emitting with: the tables of the catalog keep their names. -/
def Emission.start (c : Catalog) (verdicts : List Verdict) : Emission :=
  { names := .ofTables (c.tables.map fun (s, t) => (s.name, t.name)), verdicts }

def emitScripts (withTablespaces : Bool) (c : Catalog) : Emit (Except Failure Scripts) := do
  match ← emitBefore withTablespaces c with
  | .error failure => return .error failure
  | .ok before =>
    let after ← emitAfter withTablespaces c
    let unsure ← emitUnsure c
    return .ok { before, after, unsure }

structure Conversion where
  session : Load.Session
  scripts : Scripts
  emission : Emission

/-- The notices of a conversion and what it comes to. -/
structure Conversion.Result where
  /-- Notices of loading. -/
  loading : List Notice
  /-- The session after loading, if loading came to its end. -/
  loaded : Option Load.Session
  /-- Notices of emission. -/
  emitting : List Notice
  outcome : Except Failure Conversion

def convert (withTablespaces : Bool) (verdicts : List Verdict) (lines : List (List Char)) :
    Conversion.Result :=
  match ({} : Load.Session).takeAll (Dump.statements lines) with
  | (_, notices, some failure) => ⟨notices, none, [], .error failure⟩
  | (session, notices, none) =>
    let (scripts, emission) :=
      (emitScripts withTablespaces session.catalog).run (.start session.catalog verdicts)
    { loading := notices, loaded := some session, emitting := emission.notices
      outcome := scripts.map fun scripts => ⟨session, scripts, emission⟩ }

end SchemaTransfer
