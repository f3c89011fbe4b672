import SchemaTransfer.Dump.SequenceLine
import SchemaTransfer.Load.Reading

/-!
# The lines of a sequence and of a tablespace
-/
namespace SchemaTransfer.Load
open Dump

namespace SequenceBody

/-- Sets two values, one after the other; if the second is refused, the first stays set. -/
def setTwo (s : Sequence) (first second : List Char)
    (setFirst setSecond : Sequence → Int → Sequence) : Sequence × Option Failure :=
  match integer first with
  | .error failure => (s, some failure)
  | .ok a =>
    match integer second with
    | .error failure => (setFirst s a, some failure)
    | .ok b => (setSecond (setFirst s a) b, none)

def set (s : Sequence) : SequenceLine → Sequence × Option Failure
  | .range least greatest =>
    setTwo s least greatest (fun s n => { s with minValue := some n })
      fun s n => { s with maxValue := some n }
  | .start value increment =>
    setTwo s value increment (fun s n => { s with start := some n })
      fun s n => { s with increment := n }
  | .cache none cycle => ({ s with cache := some 1, cycle }, none)
  | .cache (some digits) cycle =>
    match integer digits with
    | .error failure => (s, some failure)
    | .ok n => ({ s with cache := some n, cycle }, none)

def read (s : Sequence) : List (List Char) → Reading Sequence
  | [] => .done s
  | line :: rest =>
    match SequenceLine.ofLine? line with
    | none => .malformed s (.sequenceLine line)
    | some clause =>
      match set s clause with
      | (s, none) => read s rest
      | (s, some failure) => .fail s failure

end SequenceBody

namespace TablespaceBody

def addPaths (t : Tablespace) (containers : List Container) : Tablespace :=
  { t with paths := t.paths ++ containers.map (·.path) }

/-- The list of containers goes on unless its last one so far closes it. -/
def goesOn (containers : List Container) : Bool :=
  match containers.getLast? with
  | some c => !c.closes
  | none => true

/-- `inList` tells whether a list of containers is open. -/
def read (t : Tablespace) : (inList : Bool) → List (List Char) → Reading Tablespace
  | false, [] => .done t
  | true, [] => .malformed t (.containersUnterminated t.name)
  | inList, line :: rest =>
    match if inList then some line else containersStart? line with
    | some text =>
      let containers := Container.ofLine text
      if containers.isEmpty then .malformed t (.containers t.name text)
      else read (addPaths t containers) (goesOn containers) rest
    | none =>
      if isTablespaceAttribute line then read t false rest
      else .malformed t (.tablespaceLine line)

end TablespaceBody

end SchemaTransfer.Load
