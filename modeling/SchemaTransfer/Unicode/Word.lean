import SchemaTransfer.Unicode.Word.Table

/-!
# Word characters

Letters, numbers and the underscore make words; a word starts or ends where exactly one of two
neighbours is such a character.
-/
namespace SchemaTransfer.Unicode

def isWord (c : Char) : Bool :=
  if c.toNat < 128 then c.isAlphanum || c == '_' else Word.beyondAscii.contains c

/-- No word goes on at the front of `cs`. -/
def wordEnds : List Char → Bool
  | [] => true
  | c :: _ => !isWord c

end SchemaTransfer.Unicode
