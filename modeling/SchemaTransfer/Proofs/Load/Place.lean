import SchemaTransfer.Load.Object

/-!
# Where a line of a statement may stand

The lines behind the first line of a statement are read from one place to the next. `Place.next?`
says which lines may stand at a place and where they lead to, without what they mean. A reading
`Refuses` lines that have no place: it stops at the first such line, unless the lines before it
make it stop already.
-/
namespace SchemaTransfer.Load
open Unicode Dump

/-- What the next line of a statement may be. -/
inductive Place
  | nothing
  | anything
  /-- A line of a sequence. -/
  | sequence
  /-- An attribute of a tablespace, or the beginning of a list of containers. -/
  | tablespace
  | containers
  | columns
  /-- The options of an identity column. -/
  | identity
  | storage
  /-- What is added to a table. -/
  | addition
  /-- A list of columns, and the place behind it. -/
  | list (directed : Bool) (behind : Place)
  | references
  /-- What may follow a foreign key. -/
  | trailers
  | condition
  /-- What may follow a condition. -/
  | checkTrailers
  /-- What may follow the columns of an index. -/
  | indexTail
  | indexTrailers
  deriving DecidableEq, Inhabited

namespace Place

def listNext? (directed : Bool) (behind : Place) (line : List Char) : Option Place :=
  match ListItem.ofLine? line with
  | none => none
  | some item =>
    if item.direction.isSome && !directed then none
    else some (if item.closes then behind else .list directed behind)

def containersNext? (line : List Char) : Option Place :=
  let containers := Container.ofLine line
  if containers.isEmpty then none
  else some (if TablespaceBody.goesOn containers then .containers else .tablespace)

/-- The storage of a table may be told at several places and does not lead away from there. -/
def storageNext? (here : Place) (line : List Char) : Option Place :=
  (Storage.ofLine? line).map fun _ => here

/-- Whether the type and the default of a column are of a known form. -/
def isColumn (c : ColumnLine) : Bool :=
  ColumnLine.isType c.type && match c.clause with
    | .default text => ColumnLine.isDefault (trim text)
    | _ => true

def behindColumn (c : ColumnLine) : Place :=
  match c.clause with
  | .identity _ => .identity
  | _ => if c.closes then .storage else .columns

def behindIdentity : IdentityClause → Place
  | .order _ closes => if closes then .storage else .columns
  | _ => .identity

def behindAddition : Addition → Place
  | .primaryKey _ => .list false .nothing
  | .unique _ => .list false .nothing
  | .foreignKey _ => .list false .references
  | .check _ => .condition

/-- The place behind a line, if the line may stand at a place. -/
def next? (p : Place) (line : List Char) : Option Place :=
  match p with
  | nothing => none
  | anything => some .anything
  | sequence => (SequenceLine.ofLine? line).map fun _ => .sequence
  | tablespace =>
    match containersStart? line with
    | some text => containersNext? text
    | none => if isTablespaceAttribute line then some .tablespace else none
  | containers => containersNext? line
  | columns =>
    match ColumnLine.ofLine? line with
    | some c => if isColumn c then some (behindColumn c) else none
    | none => if closesColumns line then some .storage else storageNext? .columns line
  | identity => (IdentityClause.ofLine? line).map behindIdentity
  | storage => storageNext? .storage line
  | addition => (Addition.ofLine? line).map behindAddition
  | list directed behind => listNext? directed behind line
  | references => (references? line).map fun _ => .list false .trailers
  | trailers => (ConstraintTrailer.ofLine? line).map fun _ => .trailers
  | condition => some (if endsCheck line then .checkTrailers else .condition)
  | checkTrailers => if CheckBody.isTrailer line then some .checkTrailers else none
  | indexTail =>
    match include? line with
    | some first => listNext? false .indexTrailers first
    | none => if IndexTrailer.isLine line then some .indexTrailers else none
  | indexTrailers => if IndexTrailer.isLine line then some .indexTrailers else none

/-- The place behind several lines, if each of them may stand where it stands. -/
def after? (p : Place) : List (List Char) → Option Place
  | [] => some p
  | line :: rest => (p.next? line).bind fun q => q.after? rest

/-- The place behind the first line of a statement. -/
def ofForm : Form → Place
  | .ignored => .anything
  | .createTablespace _ => .tablespace
  | .createRole _ => .nothing
  | .commentRole _ _ => .anything
  | .createSchema _ _ => .nothing
  | .createSequence _ _ => .sequence
  | .restartSequence _ _ _ => .nothing
  | .createTable _ _ => .columns
  | .alterTable _ _ => .addition
  | .restartIdentity _ _ _ _ => .nothing
  | .createIndex _ _ _ _ _ => .list true .indexTail
  | .commentColumn _ _ _ _ => .anything
  | .commentTable _ _ _ => .anything
  | .createDomain _ _ _ => .nothing
  | .setSchema _ => .nothing
  | .setPath _ => .nothing
  | .createView _ _ _ => .anything
  | .createTrigger _ _ _ => .anything
  | .commentTrigger _ _ _ => .anything
  | .createFunction _ _ _ => .anything

theorem after?_cons {p q : Place} {line : List Char} {rest : List (List Char)}
    (h : p.after? (line :: rest) = some q) :
    ∃ next, p.next? line = some next ∧ next.after? rest = some q :=
  Option.bind_eq_some_iff.1 h

/-- Lines that do not all have a place hold a first one that has none. -/
theorem exists_of_after?_eq_none {p : Place} {lines : List (List Char)}
    (h : p.after? lines = none) : ∃ before line more q, lines = before ++ line :: more ∧
      p.after? before = some q ∧ q.next? line = none := by
  induction lines generalizing p with
  | nil => cases h
  | cons line rest ih =>
    cases hnext : p.next? line with
    | none => exact ⟨[], line, rest, p, rfl, rfl, hnext⟩
    | some next =>
      rw [after?, hnext, Option.bind_some] at h
      obtain ⟨before, bad, more, q, rfl, hbefore, hbad⟩ := ih h
      refine ⟨line :: before, bad, more, q, rfl, ?_, hbad⟩
      rw [after?, hnext, Option.bind_some, hbefore]

theorem after?_anything (lines : List (List Char)) :
    anything.after? lines = some .anything := by
  induction lines with
  | nil => rfl
  | cons line rest ih => rw [after?, next?, Option.bind_some, ih]

end Place

section

variable {α β : Type} {p : Place}

/-- A reading of lines stops at the first line that has no place, as malformed, unless it stops
with the same failure without this line and those behind it. -/
def Refuses (p : Place) (read : List (List Char) → Except Failure α) : Prop :=
  ∀ before line more q, p.after? before = some q → q.next? line = none →
    (∃ cause, read (before ++ line :: more) = .error (.malformed cause)) ∨
      ∃ failure, read before = .error failure ∧ read (before ++ line :: more) = .error failure

theorem refuses_anything (read : List (List Char) → Except Failure α) :
    Refuses .anything read := by
  intro before line more q hbefore hline
  rw [Place.after?_anything] at hbefore
  cases hbefore
  cases hline

theorem refuses_error (p : Place) (failure : Failure) :
    Refuses p fun _ => (.error failure : Except Failure α) :=
  fun _ _ _ _ _ _ => .inr ⟨failure, rfl, rfl⟩

theorem refuses_nothing {read : List (List Char) → Except Failure α}
    (h : ∀ line more, ∃ cause, read (line :: more) = .error (.malformed cause)) :
    Refuses .nothing read := by
  intro before line more q hbefore _
  cases before with
  | nil => exact .inl (h line more)
  | cons first before => cases hbefore

theorem Refuses.map {read : List (List Char) → Except Failure α} (h : Refuses p read)
    (f : α → β) : Refuses p fun lines => (read lines).map f := by
  intro before line more q hbefore hline
  rcases h before line more q hbefore hline with ⟨cause, hread⟩ | ⟨failure, halone, hread⟩
  · exact .inl ⟨cause, congrArg (Except.map f) hread⟩
  · exact .inr ⟨failure, congrArg (Except.map f) halone, congrArg (Except.map f) hread⟩

/-- What is made of the lines behind one that has a place. -/
theorem Refuses.next {read : List (List Char) → Except Failure α} (h : Refuses p read) {q : Place}
    {first : List Char} (hfirst : p.next? first = some q) :
    Refuses q fun rest => read (first :: rest) := by
  intro before line more r hbefore hline
  refine h (first :: before) line more r ?_ hline
  rw [Place.after?, hfirst, Option.bind_some, hbefore]

/-- One line is read, and then those behind it. -/
theorem refuses_of_next {read : List (List Char) → Except Failure α}
    (hstop : ∀ line more, p.next? line = none →
      ∃ cause, read (line :: more) = .error (.malformed cause))
    (hgo : ∀ line q, p.next? line = some q → Refuses q fun rest => read (line :: rest)) :
    Refuses p read := by
  intro before line more q hbefore hline
  cases before with
  | nil =>
    cases hbefore
    exact .inl (hstop line more hline)
  | cons first before =>
    obtain ⟨next, hnext, hrest⟩ := Place.after?_cons hbefore
    exact hgo first next hnext before line more q hrest hline

/-- A reader with states stands at a place in each of them. A line that has a place either makes
it stop or leads to a state at the next place. -/
theorem refuses_of_step {σ : Type} (place : σ → Place)
    (read : σ → List (List Char) → Except Failure α)
    (hstop : ∀ s line more, (place s).next? line = none →
      ∃ cause, read s (line :: more) = .error (.malformed cause))
    (hgo : ∀ s line q, (place s).next? line = some q →
      (∃ failure, ∀ rest, read s (line :: rest) = .error failure) ∨
        ∃ s', place s' = q ∧ ∀ rest, read s (line :: rest) = read s' rest) (s : σ) :
    Refuses (place s) (read s) := by
  intro before line more q hbefore hline
  induction before generalizing s with
  | nil =>
    cases hbefore
    exact .inl (hstop s line more hline)
  | cons first before ih =>
    obtain ⟨next, hnext, hrest⟩ := Place.after?_cons hbefore
    rcases hgo s first next hnext with ⟨failure, hfails⟩ | ⟨s', hplace, hsame⟩
    · exact .inr ⟨failure, hfails _, hfails _⟩
    · rw [← hplace] at hrest
      rw [List.cons_append, hsame, hsame]
      exact ih s' hrest

end

end SchemaTransfer.Load
