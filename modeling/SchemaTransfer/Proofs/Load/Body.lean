import SchemaTransfer.Load.ConstraintBody
import SchemaTransfer.Load.SequenceBody

/-!
# Readers in stages

A key, a foreign key, a condition and an index are read in stages: first the columns or the code,
then the lines behind them. A tablespace is read line by line, inside and outside a list of
containers.
-/
namespace SchemaTransfer.Load
open Unicode Dump

theorem tablespace_read_cons (t : Tablespace) (inList : Bool) (line : List Char)
    (rest : List (List Char)) :
    TablespaceBody.read t inList (line :: rest) =
      match if inList then some line else containersStart? line with
      | some text =>
        if (Container.ofLine text).isEmpty then .malformed t (.containers t.name text)
        else
          TablespaceBody.read (TablespaceBody.addPaths t (Container.ofLine text))
            (TablespaceBody.goesOn (Container.ofLine text)) rest
      | none =>
        if isTablespaceAttribute line then TablespaceBody.read t false rest
        else .malformed t (.tablespaceLine line) := by
  cases inList <;> rfl

/-- What is made of the lines behind the columns of a key. -/
def keyFrom (context : String) (number : Nat) (name : Option String) (columns : List String)
    (lines : List (List Char)) : Except Failure Key :=
  if lines.isEmpty then .ok ⟨columns, name⟩
  else .error (.malformed (.overflow context number lines))

theorem key_eq (context : String) (number : Nat) (name : Option String)
    (lines : List (List Char)) : AlterBody.key context number name lines =
      nameList context lines >>= fun r => keyFrom context number name r.1 r.2 := by
  unfold AlterBody.key keyFrom
  cases nameList context lines with
  | error failure => rfl
  | ok r =>
    simp only [bind, Except.bind]
    cases r.2.isEmpty <;> rfl

/-- What is made of the lines behind the columns of a foreign key. -/
def referencesFrom (context : String) (name : Option String) (columns : List String)
    (lines : List (List Char)) : Except Failure ForeignKey :=
  match references? (lines.headD []) with
  | none => .error (.malformed (.noReferences (lines.headD []) context))
  | some (refSchema, refTable) => do
    let r ← nameList context lines.tail
    ForeignKeyBody.trailers context { columns, refSchema, refTable, refColumns := r.1, name } r.2

theorem foreignKey_read_eq (context : String) (name : Option String)
    (lines : List (List Char)) : ForeignKeyBody.read context name lines =
      nameList context lines >>= fun r => referencesFrom context name r.1 r.2 := by
  unfold ForeignKeyBody.read referencesFrom
  cases nameList context lines with
  | error failure => rfl
  | ok r =>
    simp only [bind, Except.bind]
    cases references? (r.2.headD []) <;> rfl

/-- What is made of the lines of a condition and of those behind it. -/
def checkFrom (context : String) (name : Option String) (code rest : List (List Char)) :
    Except Failure Check :=
  match rest.find? fun line => !CheckBody.isTrailer line with
  | some line => .error (.malformed (.checkLine line context))
  | none =>
    if (trim ([' '].intercalate code)).isEmpty then .error (.malformed (.checkEmpty context))
    else .ok ⟨.ofList (trim ([' '].intercalate code)), name⟩

theorem check_read_eq (context : String) (name : Option String) (lines : List (List Char)) :
    CheckBody.read context name lines =
      checkFrom context name (CheckBody.condition lines).1 (CheckBody.condition lines).2 := by
  unfold CheckBody.read checkFrom
  cases hfind : (CheckBody.condition lines).2.find? fun line => !CheckBody.isTrailer line with
  | some line =>
    simp only [hfind]
    rfl
  | none =>
    simp only [hfind]
    split <;> rfl

/-- What is made of the lines behind the lists of an index. -/
def indexFrom (context : String) (index : Index) (lines : List (List Char)) :
    Except Failure Index :=
  match lines.find? fun line => !IndexTrailer.isLine line with
  | some line => .error (.malformed (.indexLine line context))
  | none => .ok index

theorem indexFrom_cons (context : String) (index : Index) {line : List Char}
    (h : IndexTrailer.isLine line = true) (rest : List (List Char)) :
    indexFrom context index (line :: rest) = indexFrom context index rest := by
  simp [indexFrom, h]

theorem indexFrom_stops (context : String) (index : Index) {line : List Char}
    (h : IndexTrailer.isLine line = false) (rest : List (List Char)) :
    indexFrom context index (line :: rest) = .error (.malformed (.indexLine line context)) := by
  simp [indexFrom, h]

theorem index_read_eq (context : String) (unique : Bool) (indexSchema name : String)
    (lines : List (List Char)) : IndexBody.read context unique indexSchema name lines =
      columnList context true lines >>= fun r =>
        IndexBody.included context r.2 >>= fun i =>
          indexFrom context
            { name, indexSchema, unique, columns := r.1, includeColumns := i.1 } i.2 := by
  unfold IndexBody.read indexFrom
  cases columnList context true lines with
  | error failure => rfl
  | ok r =>
    simp only [bind, Except.bind]
    cases IndexBody.included context r.2 with
    | error failure => rfl
    | ok i =>
      dsimp only
      cases i.2.find? fun line => !IndexTrailer.isLine line <;> rfl

theorem ofExcept_outcome {α : Type} (value : α) (result : Except Failure α) :
    (Reading.ofExcept value result).outcome = result.map fun _ => [] := by
  cases result <;> rfl

end SchemaTransfer.Load
