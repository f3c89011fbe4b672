/-!
# Single-quoted literals inside a text

A text is cut into its single-quoted literals and the text outside of them. Inside a literal two
quotes in a row stand for one. Where a text ends inside a literal, the literal closes at the first
quote of the last such pair after its start, if there is one; otherwise its opening quote belongs
to the text outside.
-/
namespace SchemaTransfer

inductive Segment
  | outside (text : List Char)
  /-- The quotes that enclose the literal are left out. -/
  | literal (body : List Char)
  deriving DecidableEq, Repr

namespace Segment

/-- The body of a literal whose opening quote has been passed, and what follows its closing
quote. -/
def body? : List Char → Option (List Char × List Char)
  | [] => none
  | '\'' :: '\'' :: cs =>
    match body? cs with
    | some (body, rest) => some ('\'' :: '\'' :: body, rest)
    | none => some ([], '\'' :: cs)
  | '\'' :: cs => some ([], cs)
  | c :: cs => (body? cs).map fun (body, rest) => (c :: body, rest)

theorem eq_append_of_body? {cs body rest : List Char} (h : body? cs = some (body, rest)) :
    cs = body ++ '\'' :: rest := by
  fun_induction body? cs generalizing body rest with
  | case1 => simp at h
  | case2 cs b r hb ih =>
    simp only [Option.some.injEq, Prod.mk.injEq] at h
    obtain ⟨rfl, rfl⟩ := h
    simp [ih hb]
  | case3 cs _ _ =>
    simp only [Option.some.injEq, Prod.mk.injEq] at h
    obtain ⟨rfl, rfl⟩ := h
    rfl
  | case4 cs =>
    simp only [Option.some.injEq, Prod.mk.injEq] at h
    obtain ⟨rfl, rfl⟩ := h
    rfl
  | case5 c cs _ _ ih =>
    obtain ⟨⟨b, r⟩, hb, he⟩ := Option.map_eq_some_iff.1 h
    simp only [Prod.mk.injEq] at he
    obtain ⟨rfl, rfl⟩ := he
    simp [ih hb]

/-- Puts a character in front of the first outside text. -/
def push (c : Char) : List Segment → List Segment
  | .outside text :: segments => .outside (c :: text) :: segments
  | segments => .outside [c] :: segments

/-- `passed` characters still belong to the literal met last. -/
def splitFrom : (passed : Nat) → List Char → List Segment
  | _, [] => [.outside []]
  | passed + 1, _ :: cs => splitFrom passed cs
  | 0, c :: cs =>
    match if c = '\'' then body? cs else none with
    | some (body, _) => .outside [] :: .literal body :: splitFrom (body.length + 1) cs
    | none => push c (splitFrom 0 cs)

/-- The segments of a text, an outside text first. Two literals have an outside text between them,
which may be empty, and an outside text is last. -/
def split (cs : List Char) : List Segment := splitFrom 0 cs

theorem splitFrom_eq_split_drop (n : Nat) (cs : List Char) :
    splitFrom n cs = split (cs.drop n) := by
  induction cs generalizing n with
  | nil => cases n <;> rfl
  | cons c cs ih =>
    cases n with
    | zero => rfl
    | succ n => exact ih n

/-- Behind a literal the text is split anew. -/
theorem split_quote {cs body rest : List Char} (h : body? cs = some (body, rest)) :
    split ('\'' :: cs) = .outside [] :: .literal body :: split rest := by
  have hrest : cs.drop (body.length + 1) = rest := by
    rw [eq_append_of_body? h]
    simp
  simp only [split, splitFrom, if_true, h]
  rw [splitFrom_eq_split_drop, hrest]
  rfl

def text : Segment → List Char
  | .outside text => text
  | .literal body => '\'' :: body ++ ['\'']

def join (segments : List Segment) : List Char := segments.flatMap text

/-- Applies `f` to the text outside literals. -/
def mapOutside (f : List Char → List Char) : Segment → Segment
  | .outside text => .outside (f text)
  | .literal body => .literal body

end Segment

/-- Changes what stands outside the single-quoted literals of a text by `f`, one segment at a
time. -/
def outsideLiterals (f : List Char → List Char) (cs : List Char) : List Char :=
  Segment.join ((Segment.split cs).map (Segment.mapOutside f))

end SchemaTransfer
