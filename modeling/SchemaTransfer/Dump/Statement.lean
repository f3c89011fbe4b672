import SchemaTransfer.Dump.Comment
import SchemaTransfer.Text.Scan

/-!
# Statements of a dump

Comments and blank lines are left out. A statement goes on to the first line that ends in a
semicolon. The body of a function that is written as a block, `BEGIN ATOMIC` to `END`, holds
semicolons of its own: from the line of `BEGIN ATOMIC` on, the statement ends only with a line that
ends in a semicolon and has, or follows, a line ending in `END`.
-/
namespace SchemaTransfer.Dump
open Unicode Scan

/-- A line with its position in the dump, counted from one. -/
structure Line where
  number : Nat
  text : List Char
  deriving DecidableEq, Inhabited

/-- The lines that are not blank once their comments are gone; `n` lines stand before them. -/
def contentFrom (n : Nat) : List (List Char) → List Line
  | [] => []
  | raw :: rest =>
    let text := stripComment raw
    if allBlank text then contentFrom (n + 1) rest
    else ⟨n + 1, text⟩ :: contentFrom (n + 1) rest

/-- How far a reader is inside a statement. -/
inductive Mode
  | plain
  | atomicBody
  deriving DecidableEq, Inhabited

/-- Whether the line, blanks aside, ends in a semicolon. -/
def isTerminated (line : List Char) : Bool := (trimRight line).getLast? == some ';'

/-- A line up to the semicolon that ends it. -/
def withoutTerminator (line : List Char) : List Char :=
  if isTerminated line then (trimRight line).dropLast else line

/-- Whether `CREATE` and, later on the same line of text, `FUNCTION` occur. -/
def declaresFunction (line : List Char) : Bool :=
  (search? (fun cs => do
    let rest ← keyword? "create" cs
    search? (keyword? "function") (rest.takeWhile (· != '\n'))) line).isSome

def beginsAtomic (line : List Char) : Bool :=
  (do
    let cs ← keyword? "begin" (trimLeft line)
    let cs ← blanks? cs
    let cs ← keyword? "atomic" cs
    if wordEnds cs then some () else none).isSome

/-- Whether a line, but for one semicolon and blanks, ends in the keyword `END`. -/
def endsBlock (line : List Char) : Bool :=
  go false line
where
  /-- `inWord` tells whether a word goes up to here. -/
  go (inWord : Bool) : List Char → Bool
    | [] => false
    | c :: cs => (!inWord && atEnd (c :: cs)) || go (isWord c) cs
  atEnd (cs : List Char) : Bool :=
    match keyword? "end" cs with
    | some rest => allBlank (optional (literal? ";") rest)
    | none => false

/-- What a reader remembers of the lines of a statement read so far. -/
structure Progress where
  /-- The first line declares a function. -/
  inFunction : Bool
  mode : Mode := .plain
  /-- The closing `END` of the body has been met. -/
  seenEnd : Bool := false
  deriving DecidableEq, Inhabited

def Progress.next (p : Progress) (line : List Char) : Progress :=
  let mode := if p.inFunction && beginsAtomic line then .atomicBody else p.mode
  { p with mode, seenEnd := p.seenEnd || (mode = .atomicBody && endsBlock line) }

/-- Whether the line just read ends the statement. -/
def Progress.isClosed (p : Progress) (line : List Char) : Bool :=
  isTerminated line && (p.mode = .plain || p.seenEnd)

structure Statement where
  first : List Char
  /-- The lines after the first. -/
  rest : List (List Char)
  /-- The position of the first line in the dump. -/
  number : Nat
  deriving DecidableEq, Inhabited

def Statement.lines (s : Statement) : List (List Char) := s.first :: s.rest

/-- The last line loses its terminator, and is left out if nothing else stood on it. -/
def closing : List (List Char) → List (List Char)
  | [] => []
  | [last] =>
    let last := withoutTerminator last
    if allBlank last then [] else [last]
  | line :: lines => line :: closing lines

/-- The first line of a statement stays even if nothing but the terminator stood on it. -/
def Statement.ofLines (first : Line) : List Line → Statement
  | [] => ⟨withoutTerminator first.text, [], first.number⟩
  | rest => ⟨first.text, closing (rest.map (·.text)), first.number⟩

/-- A statement some lines of which have been read. -/
structure Begun where
  first : Line
  rest : List Line
  progress : Progress
  /-- The number of the line that began the body of a function. -/
  bodyStart : Option Nat
  deriving DecidableEq, Inhabited

namespace Begun

def bodyStartAt (before after : Progress) (line : Line) : Option Nat :=
  if before.mode = .plain && after.mode = .atomicBody then some line.number else none

def ofFirst (line : Line) : Begun :=
  let p : Progress := { inFunction := declaresFunction line.text }
  let q := p.next line.text
  ⟨line, [], q, bodyStartAt p q line⟩

def add (b : Begun) (line : Line) : Begun :=
  let q := b.progress.next line.text
  ⟨b.first, b.rest ++ [line], q, b.bodyStart.or (bodyStartAt b.progress q line)⟩

end Begun

/-- A statement as it was read. -/
structure Taken where
  statement : Statement
  /-- The mode in which its last line was read. -/
  mode : Mode
  bodyStart : Option Nat := none
  deriving DecidableEq, Inhabited

def Begun.taken (b : Begun) : Taken :=
  ⟨.ofLines b.first b.rest, b.progress.mode, b.bodyStart⟩

/-- Cuts lines into statements. The lines after the last terminator make a statement too. -/
def group : Option Begun → List Line → List Taken
  | none, [] => []
  | some b, [] => [b.taken]
  | current, line :: rest =>
    let b := match current with
      | none => Begun.ofFirst line
      | some b => b.add line
    if b.progress.isClosed line.text then b.taken :: group none rest else group (some b) rest

/-- The statements of a dump in their order. -/
def statements (lines : List (List Char)) : List Taken := group none (contentFrom 0 lines)

end SchemaTransfer.Dump
