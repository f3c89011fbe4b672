import SchemaTransfer.Load.Session
import SchemaTransfer.Proofs.Dump.Statement
import SchemaTransfer.Proofs.Load.Body

/-!
# Statements further down

Where a statement stands in the dump shows in what is said about it and in nothing else. Some
failures and two notices tell the number of a line; taken further down, a statement does the same
to the session and fails for the same reason, with that number moved along.
-/
namespace SchemaTransfer
open Unicode Dump Load

def Unrecognized.down (k : Nat) : Unrecognized → Unrecognized
  | .statement first n => .statement first (n + k)
  | .table schema name n => .table schema name (n + k)
  | .role name n => .role name (n + k)
  | .sequence schema name n => .sequence schema name (n + k)
  | .trigger schema name n => .trigger schema name (n + k)
  | .column schema owner name n => .column schema owner name (n + k)
  | .identity schema owner name n => .identity schema owner name (n + k)

def Malformed.down (k : Nat) : Malformed → Malformed
  | .overflow statement n lines => .overflow statement (n + k) lines
  | .tableLine line table n => .tableLine line table (n + k)
  | .noColumns table n => .noColumns table (n + k)
  | .changeEmpty context n => .changeEmpty context (n + k)
  | cause => cause

/-- The same failure of a statement that stands `k` lines further down. -/
def Failure.down (k : Nat) : Failure → Failure
  | .unrecognized cause => .unrecognized (cause.down k)
  | .malformed cause => .malformed (cause.down k)
  | failure => failure

def Notice.down (k : Nat) : Notice → Notice
  | .bodyStarts n => .bodyStarts (n + k)
  | .ignored first n => .ignored first (n + k)
  | notice => notice

theorem Notice.level_down (k : Nat) (notice : Notice) : (notice.down k).level = notice.level := by
  cases notice <;> rfl

theorem Notice.down_of_warning {notice : Notice} (h : notice.level = .warning) (k : Nat) :
    notice.down k = notice := by
  cases notice with
  | bodyStarts n => cases h
  | ignored first n => cases h
  | _ => rfl

/-- No warning tells the number of a line. -/
theorem warnings_down (k : Nat) (notices : List Notice) :
    warnings (notices.map (Notice.down k)) = warnings notices := by
  induction notices with
  | nil => rfl
  | cons notice rest ih =>
    unfold warnings at ih ⊢
    rw [List.map_cons, List.filter_cons, List.filter_cons, Notice.level_down]
    split
    · next h =>
      rw [List.map_cons, List.map_cons, ih, Notice.down_of_warning (of_decide_eq_true h)]
    · exact ih

theorem warnings_append (xs ys : List Notice) :
    warnings (xs ++ ys) = warnings xs ++ warnings ys := by
  simp [warnings]

namespace Load

def Event.down (k : Nat) : Event → Event
  | .name written => .name written
  | .notice n => .notice (n.down k)

theorem nameEvents_down (k : Nat) (name : Option String) :
    (nameEvents name).map (Event.down k) = nameEvents name := by
  cases name <;> rfl

theorem report_down (k : Nat) (dashed : List String) (events : List Event) :
    report dashed (events.map (Event.down k)) =
      ((report dashed events).1, (report dashed events).2.map (Notice.down k)) := by
  induction events generalizing dashed with
  | nil => rfl
  | cons event rest ih =>
    cases event with
    | notice notice =>
      rw [List.map_cons, Event.down, report, report, ih]
      rfl
    | name written =>
      rw [List.map_cons, Event.down, report, report]
      split
      · rw [ih]
        rfl
      · exact ih _

section

variable {α β : Type}

theorem mapError_bind (g : Failure → Failure) (x : Except Failure α) (f : α → Except Failure β) :
    (x >>= f).mapError g = x.mapError g >>= fun a => (f a).mapError g := by
  cases x <;> rfl

theorem mapError_map (g : Failure → Failure) (x : Except Failure α) (f : α → β) :
    (x.map f).mapError g = (x.mapError g).map f := by
  cases x <;> rfl

/-- A result that is the same wherever the statement stands. -/
def Unnumbered (x : Except Failure α) : Prop := ∀ k, x.mapError (Failure.down k) = x

theorem unnumbered_ok (a : α) : Unnumbered (.ok a : Except Failure α) := fun _ => rfl

theorem Unnumbered.map {x : Except Failure α} (h : Unnumbered x) (f : α → β) :
    Unnumbered (x.map f) := by
  intro k
  rw [mapError_map, h k]

theorem Unnumbered.bind {x : Except Failure α} (hx : Unnumbered x) {f : α → Except Failure β}
    (hf : ∀ a, Unnumbered (f a)) : Unnumbered (x >>= f) := by
  intro k
  rw [mapError_bind, hx k]
  exact congrArg (x >>= ·) (funext fun a => hf a k)

end

theorem unnumbered_integer (numeral : List Char) : Unnumbered (integer numeral) := by
  intro k
  unfold integer
  cases Numeral.integer? numeral <;> rfl

theorem unnumbered_columnList (context : String) (directed : Bool) (lines : List (List Char)) :
    Unnumbered (columnList context directed lines) := by
  intro k
  induction lines with
  | nil => rfl
  | cons line rest ih =>
    rw [columnList]
    cases ListItem.ofLine? line with
    | none => rfl
    | some item =>
      dsimp only
      split
      · rfl
      · split
        · rfl
        · cases hrest : columnList context directed rest with
          | ok r => rfl
          | error failure =>
            rw [hrest] at ih
            exact congrArg Except.error (Except.error.inj ih)

theorem unnumbered_nameList (context : String) (lines : List (List Char)) :
    Unnumbered (nameList context lines) :=
  (unnumbered_columnList context false lines).map _

theorem unnumbered_trailers (context : String) (key : ForeignKey) (lines : List (List Char)) :
    Unnumbered (ForeignKeyBody.trailers context key lines) := by
  intro k
  induction lines generalizing key with
  | nil => rfl
  | cons line rest ih =>
    rw [ForeignKeyBody.trailers]
    cases Dump.ConstraintTrailer.ofLine? line with
    | none => rfl
    | some trailer => exact ih _

theorem unnumbered_foreignKey (context : String) (name : Option String)
    (lines : List (List Char)) : Unnumbered (ForeignKeyBody.read context name lines) := by
  rw [foreignKey_read_eq]
  apply (unnumbered_nameList context lines).bind
  intro r
  unfold referencesFrom
  cases references? (r.2.headD []) with
  | none => exact fun _ => rfl
  | some target =>
    apply (unnumbered_nameList context r.2.tail).bind
    intro refs
    exact unnumbered_trailers context _ refs.2

theorem unnumbered_check (context : String) (name : Option String) (lines : List (List Char)) :
    Unnumbered (CheckBody.read context name lines) := by
  intro k
  rw [check_read_eq]
  unfold checkFrom
  cases (CheckBody.condition lines).2.find? fun line => !CheckBody.isTrailer line with
  | some line => rfl
  | none =>
    dsimp only
    split <;> rfl

theorem unnumbered_included (context : String) (lines : List (List Char)) :
    Unnumbered (IndexBody.included context lines) := by
  unfold IndexBody.included
  cases lines with
  | nil => exact unnumbered_ok _
  | cons line rest =>
    dsimp only
    cases include? line with
    | none => exact unnumbered_ok _
    | some first => exact unnumbered_nameList _ _

theorem unnumbered_index (context : String) (unique : Bool) (indexSchema name : String)
    (lines : List (List Char)) :
    Unnumbered (IndexBody.read context unique indexSchema name lines) := by
  rw [index_read_eq]
  apply (unnumbered_columnList context true lines).bind
  intro r
  apply (unnumbered_included context r.2).bind
  intro i k
  unfold indexFrom
  cases i.2.find? fun line => !IndexTrailer.isLine line <;> rfl

theorem unnumbered_characterObject (type : String) (digits : List Char) (unit : Option Char) :
    Unnumbered (TypeName.characterObject type digits unit) := by
  intro k
  unfold TypeName.characterObject
  cases Numeral.natural? digits with
  | none => rfl
  | some n =>
    cases TypeName.multiplier? unit with
    | none => rfl
    | some m =>
      dsimp only
      split <;> rfl

/-- A type without a size keeps or changes its spelling without a notice. -/
theorem convert_cases (type : List Char) :
    (∃ spelling, TypeName.convert type = .ok (spelling, [])) ∨
      ∃ name digits unit,
        TypeName.convert type = TypeName.characterObject name digits unit := by
  unfold TypeName.convert
  dsimp only
  split
  · exact .inl ⟨_, rfl⟩
  · split
    · exact .inr ⟨_, _, _, rfl⟩
    · left
      split
      · exact ⟨_, rfl⟩
      · split
        · exact ⟨_, rfl⟩
        · split <;> exact ⟨_, rfl⟩

theorem unnumbered_convert (type : List Char) : Unnumbered (TypeName.convert type) := by
  rcases convert_cases type with ⟨spelling, h⟩ | ⟨name, digits, unit, h⟩
  · rw [h]
    exact unnumbered_ok _
  · rw [h]
    exact unnumbered_characterObject name digits unit

/-- The notice that goes with a type knows of no number either. -/
theorem characterObject_notices {type : String} {digits : List Char} {unit : Option Char}
    {r : String × List Notice} (h : TypeName.characterObject type digits unit = .ok r) (k : Nat) :
    r.2.map (Notice.down k) = r.2 := by
  unfold TypeName.characterObject at h
  cases hn : Numeral.natural? digits with
  | none =>
    rw [hn] at h
    cases h
  | some n =>
    rw [hn] at h
    cases hm : TypeName.multiplier? unit with
    | none =>
      rw [hm] at h
      cases h
    | some m =>
      rw [hm] at h
      dsimp only at h
      split at h <;> cases Except.ok.inj h <;> rfl

theorem convert_notices {type : List Char} {r : String × List Notice}
    (h : TypeName.convert type = .ok r) (k : Nat) : r.2.map (Notice.down k) = r.2 := by
  rcases convert_cases type with ⟨spelling, hok⟩ | ⟨name, digits, unit, hobject⟩
  · cases Except.ok.inj (hok.symm.trans h)
    rfl
  · exact characterObject_notices (hobject.symm.trans h) k

theorem map_notice_down (k : Nat) (notices : List Notice) :
    (notices.map Event.notice).map (Event.down k) =
      (notices.map (Notice.down k)).map Event.notice := by
  rw [List.map_map, List.map_map]
  rfl

namespace Reading

variable {α β : Type}

/-- The same reading of a statement that stands `k` lines further down. -/
def down (k : Nat) (r : Reading α) : Reading α :=
  ⟨r.value, r.events.map (Event.down k), r.outcome.mapError (Failure.down k)⟩

theorem map_down (k : Nat) (f : α → β) (r : Reading α) : (r.map f).down k = (r.down k).map f := rfl

theorem after_down (k : Nat) (events : List Event) (r : Reading α) :
    (r.after events).down k = (r.down k).after (events.map (Event.down k)) := by
  simp [down, after]

theorem expectEnd_down (k : Nat) (value : α) (statement : String) (number : Nat)
    (lines : List (List Char)) :
    expectEnd value statement (number + k) lines =
      (expectEnd value statement number lines).down k := by
  unfold expectEnd
  split <;> rfl

theorem ofExcept_down (k : Nat) (value : α) (result : Except Failure α) :
    ofExcept value (result.mapError (Failure.down k)) = (ofExcept value result).down k := by
  cases result <;> rfl

end Reading

theorem setTwo_down (k : Nat) (s : Sequence) (first second : List Char)
    (setFirst setSecond : Sequence → Int → Sequence) :
    (SequenceBody.setTwo s first second setFirst setSecond).2.map (Failure.down k) =
      (SequenceBody.setTwo s first second setFirst setSecond).2 := by
  unfold SequenceBody.setTwo integer
  cases Numeral.integer? first with
  | none => rfl
  | some a => cases Numeral.integer? second <;> rfl

theorem set_down (k : Nat) (s : Sequence) (clause : SequenceLine) :
    (SequenceBody.set s clause).2.map (Failure.down k) = (SequenceBody.set s clause).2 := by
  cases clause with
  | range least greatest => exact setTwo_down k s _ _ _ _
  | start value increment => exact setTwo_down k s _ _ _ _
  | cache digits cycle =>
    cases digits with
    | none => rfl
    | some digits =>
      have hsame := unnumbered_integer digits k
      rw [SequenceBody.set]
      cases h : integer digits with
      | error failure =>
        rw [h] at hsame
        exact congrArg some (Except.error.inj hsame)
      | ok n => rfl

theorem sequence_read_down (k : Nat) (s : Sequence) (lines : List (List Char)) :
    (SequenceBody.read s lines).down k = SequenceBody.read s lines := by
  induction lines generalizing s with
  | nil => rfl
  | cons line rest ih =>
    rw [SequenceBody.read]
    cases SequenceLine.ofLine? line with
    | none => rfl
    | some clause =>
      have hset := set_down k s clause
      dsimp only
      cases h : SequenceBody.set s clause with
      | mk s' failure =>
        rw [h] at hset
        cases failure with
        | none => exact ih s'
        | some failure => exact congrArg (Reading.fail s') (Option.some.inj hset)

theorem tablespace_read_down (k : Nat) (t : Tablespace) (inList : Bool)
    (lines : List (List Char)) :
    (TablespaceBody.read t inList lines).down k = TablespaceBody.read t inList lines := by
  induction lines generalizing t inList with
  | nil => cases inList <;> rfl
  | cons line rest ih =>
    rw [tablespace_read_cons]
    split
    · split
      · rfl
      · exact ih _ _
    · split
      · exact ih _ _
      · rfl

namespace TableBody

/-- What a line of a table comes to, in a statement that stands `k` lines further down. -/
def stepDown (k : Nat) (s : TableBody × List Event × Option Failure) :
    TableBody × List Event × Option Failure :=
  (s.1, s.2.1.map (Event.down k), s.2.2.map (Failure.down k))

theorem clauseNotices_down (k : Nat) (shown : String) (c : ColumnLine) :
    (clauseNotices shown c).map (Notice.down k) = clauseNotices shown c := by
  unfold clauseNotices
  split
  · unfold generatedNotices
    split <;> rfl
  · rfl

theorem columnFault_down (k : Nat) {shown : String} {c : ColumnLine} {fault : Malformed}
    (h : columnFault? shown c = some fault) : fault.down k = fault := by
  unfold columnFault? at h
  split at h
  · cases h
    rfl
  · split at h
    · split at h
      · cases h
      · cases h
        rfl
    · cases h

theorem addColumn_down (k : Nat) (shown : String) (b : TableBody) (c : ColumnLine) :
    stepDown k (addColumn shown b c) = addColumn shown b c := by
  unfold addColumn
  cases hfault : columnFault? shown c with
  | some fault =>
    dsimp only [stepDown]
    rw [Option.map_some, Failure.down, columnFault_down k hfault]
    rfl
  | none =>
    dsimp only
    cases hconvert : TypeName.convert c.type with
    | error failure =>
      have hsame := unnumbered_convert c.type k
      rw [hconvert] at hsame
      dsimp only [stepDown]
      rw [Option.map_some, Except.error.inj hsame]
      rfl
    | ok r =>
      dsimp only [stepDown]
      rw [List.map_cons, map_notice_down, List.map_append, convert_notices hconvert,
        clauseNotices_down]
      rfl

theorem unnumbered_setOption (identity : Identity) (clause : IdentityClause) :
    Unnumbered (setOption identity clause) := by
  cases clause with
  | start value => exact (unnumbered_integer value).map _
  | increment value => exact (unnumbered_integer value).map _
  | minValue value => exact (unnumbered_integer value).map _
  | maxValue value => exact (unnumbered_integer value).map _
  | cycle on => exact unnumbered_ok _
  | cache digits =>
    cases digits with
    | none => exact unnumbered_ok _
    | some digits => exact (unnumbered_integer digits).map _
  | order on closes => exact unnumbered_ok _

theorem identityLine_down (k : Nat) (shown : String) (b : TableBody) (identity : Identity)
    (line : List Char) :
    stepDown k (identityLine shown b identity line) = identityLine shown b identity line := by
  unfold identityLine
  cases IdentityClause.ofLine? line with
  | none => rfl
  | some clause =>
    have hsame := unnumbered_setOption identity clause k
    dsimp only
    cases hset : setOption identity clause with
    | error failure =>
      rw [hset] at hsame
      dsimp only [stepDown]
      rw [Option.map_some, Except.error.inj hsame]
      rfl
    | ok r =>
      obtain ⟨identity', closes⟩ := r
      cases closes <;> rfl

theorem storageLine_down (k : Nat) (shown : String) (number : Nat) (b : TableBody)
    (line : List Char) :
    storageLine shown (number + k) b line = stepDown k (storageLine shown number b line) := by
  unfold storageLine
  cases Storage.ofLine? line <;> rfl

theorem step_down (k : Nat) (shown : String) (number : Nat) (b : TableBody) (line : List Char) :
    step shown (number + k) b line = stepDown k (step shown number b line) := by
  unfold step
  cases b.part with
  | identity identity => exact (identityLine_down k shown b identity line).symm
  | storage => exact storageLine_down k shown number b line
  | columns =>
    dsimp only
    cases ColumnLine.ofLine? line with
    | some c => exact (addColumn_down k shown b c).symm
    | none =>
      dsimp only
      split
      · rfl
      · exact storageLine_down k shown number b line

theorem read_down (k : Nat) (shown : String) (number : Nat) (b : TableBody)
    (lines : List (List Char)) :
    read shown (number + k) b lines = (read shown number b lines).down k := by
  induction lines generalizing b with
  | nil =>
    rw [read, read]
    unfold endFault?
    cases b.part with
    | identity identity => rfl
    | columns => cases b.table.columns.isEmpty <;> rfl
    | storage => cases b.table.columns.isEmpty <;> rfl
  | cons line rest ih =>
    rw [read, read, step_down]
    obtain ⟨b', events, failure⟩ := step shown number b line
    cases failure with
    | none =>
      dsimp only [stepDown, Option.map_none]
      rw [ih, Reading.after_down]
    | some failure => rfl

end TableBody

theorem key_down (k : Nat) (context : String) (number : Nat) (name : Option String)
    (lines : List (List Char)) :
    AlterBody.key context (number + k) name lines =
      (AlterBody.key context number name lines).mapError (Failure.down k) := by
  rw [key_eq, key_eq, mapError_bind, unnumbered_nameList context lines k]
  apply congrArg (nameList context lines >>= ·)
  funext r
  unfold keyFrom
  split <;> rfl

theorem extend_down (k : Nat) (context : String) (number : Nat) (t : Table) (addition : Addition)
    (lines : List (List Char)) :
    AlterBody.extend context (number + k) t addition lines =
      (AlterBody.extend context number t addition lines).mapError (Failure.down k) := by
  cases addition with
  | primaryKey name => rw [AlterBody.extend, AlterBody.extend, key_down, mapError_map]
  | unique name => rw [AlterBody.extend, AlterBody.extend, key_down, mapError_map]
  | foreignKey name => exact ((unnumbered_foreignKey context name lines).map _ k).symm
  | check name => exact ((unnumbered_check context name lines).map _ k).symm

theorem alter_read_down (k : Nat) (context : String) (number : Nat) (t : Table)
    (lines : List (List Char)) :
    AlterBody.read context (number + k) t lines =
      (AlterBody.read context number t lines).down k := by
  unfold AlterBody.read
  cases lines with
  | nil => rfl
  | cons line rest =>
    dsimp only
    cases Addition.ofLine? line with
    | none => rfl
    | some addition =>
      dsimp only
      rw [extend_down, Reading.ofExcept_down, Reading.after_down, nameEvents_down]

theorem createTablespace_down (k : Nat) (c : Catalog) (name : String)
    (lines : List (List Char)) :
    (createTablespace c name lines).down k = createTablespace c name lines := by
  unfold createTablespace
  rw [Reading.map_down, tablespace_read_down]

theorem createSequence_down (k : Nat) (c : Catalog) (schema name : String)
    (lines : List (List Char)) :
    (createSequence c schema name lines).down k = createSequence c schema name lines := by
  unfold createSequence
  rw [Reading.map_down, sequence_read_down]

theorem createTable_down (k : Nat) (c : Catalog) (schema name : String) (number : Nat)
    (lines : List (List Char)) :
    createTable c schema name (number + k) lines =
      (createTable c schema name number lines).down k := by
  unfold createTable
  rw [Reading.map_down, TableBody.read_down]

theorem restartSequence_down (k : Nat) (c : Catalog) (schema name : String) (value : List Char)
    (number : Nat) (lines : List (List Char)) :
    restartSequence c schema name value (number + k) lines =
      (restartSequence c schema name value number lines).down k := by
  unfold restartSequence
  cases (c.schema schema).sequences.get? name with
  | none => rfl
  | some q =>
    have hsame := unnumbered_integer value k
    dsimp only
    cases hvalue : integer value with
    | error failure =>
      rw [hvalue] at hsame
      exact congrArg (Reading.fail _) (Except.error.inj hsame).symm
    | ok n => exact Reading.expectEnd_down k _ _ _ _

theorem alterTable_down (k : Nat) (c : Catalog) (schema name : String) (number : Nat)
    (lines : List (List Char)) :
    alterTable c schema name (number + k) lines =
      (alterTable c schema name number lines).down k := by
  unfold alterTable
  cases c.table? schema name with
  | none => rfl
  | some t =>
    dsimp only
    rw [alter_read_down]
    cases h : (AlterBody.read ("ALTER TABLE " ++ TableBody.display schema name) number t
      lines).outcome <;>
    · dsimp only [Reading.down]
      rw [h]
      rfl

theorem restartIdentity_down (k : Nat) (c : Catalog) (schema owner column : String)
    (value : List Char) (number : Nat) (lines : List (List Char)) :
    restartIdentity c schema owner column value (number + k) lines =
      (restartIdentity c schema owner column value number lines).down k := by
  unfold restartIdentity
  cases c.table? schema owner with
  | none => rfl
  | some t =>
    dsimp only
    cases (t.column? column).bind (·.identity) with
    | none => rfl
    | some identity =>
      have hsame := unnumbered_integer value k
      dsimp only
      cases hvalue : integer value with
      | error failure =>
        rw [hvalue] at hsame
        exact congrArg (Reading.fail _) (Except.error.inj hsame).symm
      | ok n => exact Reading.expectEnd_down k _ _ _ _

theorem createIndex_down (k : Nat) (c : Catalog) (unique : Bool)
    (indexSchema name schema owner : String) (number : Nat) (lines : List (List Char)) :
    createIndex c unique indexSchema name schema owner (number + k) lines =
      (createIndex c unique indexSchema name schema owner number lines).down k := by
  unfold createIndex
  cases c.table? schema owner with
  | none => rfl
  | some t =>
    dsimp only
    rw [← Reading.ofExcept_down, (unnumbered_index _ unique indexSchema name lines).map _ k]

theorem commentColumn_down (k : Nat) (c : Catalog) (schema owner column : String)
    (text : List Char) (number : Nat) (lines : List (List Char)) :
    commentColumn c schema owner column text (number + k) lines =
      (commentColumn c schema owner column text number lines).down k := by
  unfold commentColumn
  cases c.table? schema owner with
  | none => rfl
  | some t =>
    dsimp only
    cases t.column? column <;> rfl

theorem commentTable_down (k : Nat) (c : Catalog) (schema name : String) (text : List Char)
    (lines : List (List Char)) :
    (commentTable c schema name text lines).down k = commentTable c schema name text lines := by
  unfold commentTable
  cases c.table? schema name <;> rfl

theorem createDomain_down (k : Nat) (c : Catalog) (schema name : String) (base : List Char)
    (number : Nat) (lines : List (List Char)) :
    createDomain c schema name base (number + k) lines =
      (createDomain c schema name base number lines).down k := by
  have hsame := unnumbered_convert (base.filter (· != '"')) k
  unfold createDomain
  cases hconvert : TypeName.convert (base.filter (· != '"')) with
  | error failure =>
    rw [hconvert] at hsame
    exact congrArg (Reading.fail _) (Except.error.inj hsame).symm
  | ok r =>
    dsimp only
    rw [Reading.expectEnd_down, Reading.after_down, map_notice_down, convert_notices hconvert]

theorem createFunction_down (k : Nat) (c : Catalog) (context : Context)
    (schema : Option NameToken) (name : NameToken) (first : List Char)
    (lines : List (List Char)) :
    (createFunction c context schema name first lines).down k =
      createFunction c context schema name first lines := by
  unfold createFunction
  dsimp only
  rw [Reading.after_down, map_notice_down]
  split <;> rfl

/-- Further down, a statement does the same and fails for the same reason. -/
theorem perform_down (k : Nat) (c : Catalog) (context : Context) (s : Statement) (form : Form) :
    perform c context (s.down k) form = (perform c context s form).down k := by
  cases form with
  | createTablespace name => exact (createTablespace_down k c name s.rest).symm
  | createRole name => exact Reading.expectEnd_down k _ _ _ _
  | commentRole name text =>
    show commentRole c name text (s.number + k) s.rest =
      (commentRole c name text s.number s.rest).down k
    unfold commentRole
    cases c.roles.get? name <;> rfl
  | createSchema name owner => exact Reading.expectEnd_down k _ _ _ _
  | createSequence schema name => exact (createSequence_down k c schema name s.rest).symm
  | restartSequence schema name value => exact restartSequence_down k c schema name value _ _
  | createTable schema name => exact createTable_down k c schema name _ _
  | alterTable schema name => exact alterTable_down k c schema name _ _
  | restartIdentity schema owner column value =>
    exact restartIdentity_down k c schema owner column value _ _
  | createIndex unique indexSchema name schema owner =>
    exact createIndex_down k c unique indexSchema name schema owner _ _
  | commentColumn schema owner column text =>
    exact commentColumn_down k c schema owner column text _ _
  | commentTable schema name text => exact (commentTable_down k c schema name text s.rest).symm
  | createDomain schema name base => exact createDomain_down k c schema name base _ _
  | commentTrigger schema name text =>
    show commentTrigger c schema name text (s.number + k) s.rest =
      (commentTrigger c schema name text s.number s.rest).down k
    unfold commentTrigger
    cases (c.schema schema).triggers.get? name <;> rfl
  | createFunction schema name first =>
    exact (createFunction_down k c context schema name first s.rest).symm
  | ignored => rfl
  | setSchema schema => rfl
  | setPath path => rfl
  | createView schema name first => rfl
  | createTrigger schema name first => rfl

/-- The same step of a statement that stands `k` lines further down. -/
def Step.down (k : Nat) (step : Step) : Step :=
  ⟨step.session, step.notices.map (Notice.down k), step.outcome.mapError (Failure.down k)⟩

theorem form_names_down (k : Nat) (form : Form) :
    (form.names.map Event.name).map (Event.down k) = form.names.map Event.name := by
  rw [List.map_map]
  rfl

theorem take_down (k : Nat) (session : Session) (s : Statement) :
    session.take (s.down k) = (session.take s).down k := by
  unfold Session.take
  rw [show (s.down k).first = s.first from rfl]
  cases Form.ofLine? s.first with
  | none => rfl
  | some form =>
    have hreport := report_down k session.dashed
      (form.names.map .name ++ (perform session.catalog session.context s form).events)
    rw [List.map_append, form_names_down] at hreport
    dsimp only
    rw [perform_down]
    dsimp only [Reading.down]
    rw [hreport]
    rfl

theorem readNotices_down (k : Nat) (t : Taken) :
    readNotices (t.down k) = (readNotices t).map (Notice.down k) := by
  unfold readNotices Taken.down
  cases t.bodyStart <;> rfl

end Load

end SchemaTransfer
