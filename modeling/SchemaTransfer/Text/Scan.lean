import SchemaTransfer.Unicode.Blank
import SchemaTransfer.Unicode.Casing
import SchemaTransfer.Unicode.Digit
import SchemaTransfer.Unicode.Word

/-!
# Reading from the front of a text

A scanner takes a text and returns what follows the part it accepts, with the value of that part
where it has one; `none` means that the text does not start that way. Most scanners accept at most
one part of a text. Where several parts are possible, `afterBlanks?` prefers the longest run of
blanks and `shortest?` the shortest part.
-/
namespace SchemaTransfer.Scan
open Unicode

/-- What follows `w`. -/
def literal? (w : String) (cs : List Char) : Option (List Char) :=
  w.toList.isPrefixOf? cs

/-- What follows the keyword `w`, given in lower case, in whatever case it is written. -/
def keywordChars? : List Char → List Char → Option (List Char)
  | [], cs => some cs
  | _ :: _, [] => none
  | w :: ws, c :: cs => if Casing.fold c == w then keywordChars? ws cs else none

def keyword? (w : String) (cs : List Char) : Option (List Char) :=
  keywordChars? w.toList cs

/-- What follows one or more blanks, all of them passed. -/
def blanks? : List Char → Option (List Char)
  | [] => none
  | c :: cs => if isBlank c then some (trimLeft cs) else none

/-- Succeeds at the end of a text, blanks aside. -/
def finish? (cs : List Char) : Option Unit :=
  if allBlank cs then some () else none

/-- What follows the optional part `p`. -/
def optional (p : List Char → Option (List Char)) (cs : List Char) : List Char :=
  (p cs).getD cs

/-- A name between double quotes. The blanks that pad it before the closing quote do not belong
to it. -/
def name? : List Char → Option (String × List Char)
  | '"' :: cs =>
    match cs.dropWhile (· != '"') with
    | _ :: rest => some (.ofList (trimRight (cs.takeWhile (· != '"'))), rest)
    | [] => none
  | _ => none

/-- Two names with a point between the closing and the opening quote. -/
def qualified? (cs : List Char) : Option ((String × String) × List Char) := do
  let (schema, cs) ← name? cs
  let cs ← literal? "." cs
  let (name, cs) ← name? cs
  return ((schema, name), cs)

/-- Everything between two double quotes that are not next to each other. -/
def quotedText? : List Char → Option (List Char × List Char)
  | '"' :: cs =>
    match cs.takeWhile (· != '"'), cs.dropWhile (· != '"') with
    | [], _ => none
    | _, [] => none
    | text, _ :: rest => some (text, rest)
  | _ => none

/-- One or more decimal digits of any script. -/
def digits? (cs : List Char) : Option (List Char × List Char) :=
  match cs.takeWhile isDigit with
  | [] => none
  | ds => some (ds, cs.dropWhile isDigit)

/-- Digits, a minus sign before them or not. -/
def number? : List Char → Option (List Char × List Char)
  | '-' :: cs => (digits? cs).map fun (ds, rest) => ('-' :: ds, rest)
  | cs => digits? cs

/-- All of a text that has no line feed, or one only at its end, which is left out. -/
def lastLine? (cs : List Char) : Option (List Char) :=
  match cs.dropWhile (· != '\n') with
  | [] => some cs
  | ['\n'] => some (cs.takeWhile (· != '\n'))
  | _ => none

/-- The value of `p` after one or more blanks: after as many as possible, but after fewer if `p`
fails there. -/
def afterBlanks? {α : Type} (p : List Char → Option α) : List Char → Option α
  | [] => none
  | c :: cs => if isBlank c then (afterBlanks? p cs).or (p cs) else none

/-- The shortest beginning of a text that `p` accepts the remainder of. It has no line feed. -/
def shortest? {α : Type} (p : List Char → Option α) (cs : List Char) : Option (List Char × α) :=
  match p cs with
  | some a => some ([], a)
  | none =>
    match cs with
    | [] => none
    | c :: cs =>
      if c == '\n' then none else (shortest? p cs).map fun (text, a) => (c :: text, a)

/-- As `shortest?`, for a beginning of one character at least. -/
def shortestNonempty? {α : Type} (p : List Char → Option α) :
    List Char → Option (List Char × α)
  | [] => none
  | c :: cs => if c == '\n' then none else (shortest? p cs).map fun (text, a) => (c :: text, a)

/-- The value of `p` at the first place where it has one. -/
def search? {α : Type} (p : List Char → Option α) : List Char → Option α
  | [] => p []
  | c :: cs => (p (c :: cs)).or (search? p cs)

/-- Whether `w` occurs in a text. -/
def occurs (w : String) (cs : List Char) : Bool := (search? (literal? w) cs).isSome

/-- The first word of the list that starts a text, with what follows it. -/
def oneOf? (ws : List String) (cs : List Char) : Option (String × List Char) :=
  ws.findSome? fun w => (literal? w cs).map (w, ·)

end SchemaTransfer.Scan
