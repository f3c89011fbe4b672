import SchemaTransfer.Unicode.Casing.Table

/-!
# Lower and upper case

The full mappings of Unicode: one letter may become several, and a capital sigma becomes the final
form where it ends a word. It ends a word if the nearest character before it that is not ignorable
is a letter with case and the nearest one after it is not.

`fold` is a coarser map, under which a keyword of ASCII letters is compared with a text.
-/
namespace SchemaTransfer.Unicode

namespace Casing

def isIgnorable (c : Char) : Bool := ignorable.contains c

def isCased (c : Char) : Bool := cased.contains c

/-- Whether a word goes on in `cs`, ignorable characters passed over. -/
def continues (cs : List Char) : Bool :=
  match cs.dropWhile isIgnorable with
  | [] => false
  | c :: _ => isCased c

/-- The lower case form of a character that is no capital sigma. -/
def lowerChar (c : Char) : List Char :=
  let n := c.toNat
  if n < 128 then [c.toLower]
  else if n == 0x130 then ['i', '\u0307']
  else [((image? lowerRuns n).map Char.ofNat).getD c]

def upperChar (c : Char) : List Char :=
  let n := c.toNat
  if n < 128 then [c.toUpper]
  else
    match upperExpansions.find? fun e => e.1 == n with
    | some e => e.2.map Char.ofNat
    | none => [((image? upperRuns n).map Char.ofNat).getD c]

/-- `inWord` tells whether the last character before that is not ignorable is a letter with
case. -/
def lowerFrom (inWord : Bool) : List Char → List Char
  | [] => []
  | c :: cs =>
    let inWord' := if isIgnorable c then inWord else isCased c
    if c == 'Σ' then
      (if inWord && !continues cs then 'ς' else 'σ') :: lowerFrom inWord' cs
    else
      lowerChar c ++ lowerFrom inWord' cs

/-- The letter of a keyword that `c` may stand for: ASCII letters in either case, the Kelvin sign,
the long s, and the dotted capital and the dotless small i. -/
def fold (c : Char) : Char :=
  let n := c.toNat
  if n < 128 then c.toLower
  else if n == 0x130 || n == 0x131 then 'i'
  else if n == 0x17f then 's'
  else if n == 0x212a then 'k'
  else c

end Casing

def lower (cs : List Char) : List Char := Casing.lowerFrom false cs

def upper (cs : List Char) : List Char := cs.flatMap Casing.upperChar

end SchemaTransfer.Unicode

namespace SchemaTransfer

def lowerCase (s : String) : String := .ofList (Unicode.lower s.toList)

def upperCase (s : String) : String := .ofList (Unicode.upper s.toList)

end SchemaTransfer
