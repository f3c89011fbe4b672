import SchemaTransfer.Load.Session
import SchemaTransfer.Proofs.Load.Body
import SchemaTransfer.Proofs.Load.Place
import SchemaTransfer.Proofs.Load.TableLine

/-!
# Readers refuse lines without a place

Every reader of the lines of a statement refuses lines that have no place where it begins. The
proofs follow the readers: a reader with a state goes from line to line, and one that is put
together from others passes on what they refuse. Forms that set the current schema or path are left
out here, since they do not look at their lines.
-/
namespace SchemaTransfer.Load
open Unicode Dump

section

variable {α : Type} {behind q : Place} {directed : Bool} {line : List Char}

theorem columnList_stops (h : Place.listNext? directed behind line = none) (context : String)
    (rest : List (List Char)) :
    columnList context directed (line :: rest) = .error (.malformed (.listItem line context)) := by
  unfold Place.listNext? at h
  unfold columnList
  cases hitem : ListItem.ofLine? line with
  | none => rfl
  | some item =>
    rw [hitem] at h
    dsimp only at h ⊢
    split at h
    · next hdirection => rw [if_pos hdirection]
    · cases h

/-- A line of a list ends it, or adds a column to what follows. -/
theorem columnList_goes (h : Place.listNext? directed behind line = some q) (context : String) :
    ∃ column, (q = behind ∧
        ∀ rest, columnList context directed (line :: rest) = .ok ([column], rest)) ∨
      q = .list directed behind ∧ ∀ rest, columnList context directed (line :: rest) =
        (columnList context directed rest).map fun r => (column :: r.1, r.2) := by
  unfold Place.listNext? at h
  cases hitem : ListItem.ofLine? line with
  | none => rw [hitem] at h; cases h
  | some item =>
    rw [hitem] at h
    dsimp only at h
    split at h
    · cases h
    · next hdirection =>
      refine ⟨⟨item.name, item.direction⟩, ?_⟩
      have hread (rest : List (List Char)) : columnList context directed (line :: rest) =
          if item.closes then .ok ([⟨item.name, item.direction⟩], rest)
          else (columnList context directed rest).map fun r =>
            (⟨item.name, item.direction⟩ :: r.1, r.2) := by
        rw [columnList.eq_def]
        simp only [hitem, if_neg hdirection]
        cases columnList context directed rest <;> rfl
      cases hcloses : item.closes with
      | true =>
        rw [hcloses] at h hread
        exact .inl ⟨(Option.some.inj h).symm, hread⟩
      | false =>
        rw [hcloses] at h hread
        exact .inr ⟨(Option.some.inj h).symm, hread⟩

/-- A list of columns, and then what `read` makes of the lines behind it. -/
theorem refuses_columnList (context : String)
    {read : List IndexColumn → List (List Char) → Except Failure α}
    (h : ∀ columns, Refuses behind (read columns)) :
    Refuses (.list directed behind) fun lines =>
      columnList context directed lines >>= fun r => read r.1 r.2 := by
  intro before line more q hbefore hline
  induction before generalizing read with
  | nil =>
    cases hbefore
    refine .inl ⟨.listItem line context, ?_⟩
    dsimp only
    rw [List.nil_append, columnList_stops hline context more]
    rfl
  | cons first before ih =>
    obtain ⟨next, hnext, hrest⟩ := Place.after?_cons hbefore
    obtain ⟨column, ⟨rfl, hread⟩ | ⟨rfl, hread⟩⟩ := columnList_goes hnext context
    · dsimp only
      rw [List.cons_append, hread, hread]
      exact h [column] before line more q hrest hline
    · have hbehind := ih (fun columns => h (column :: columns)) hrest
      have hmap (lines : List (List Char)) :
          ((columnList context directed lines).map fun r => (column :: r.1, r.2)) >>=
            (fun r => read r.1 r.2) =
          columnList context directed lines >>= fun r => read (column :: r.1) r.2 := by
        cases columnList context directed lines <;> rfl
      dsimp only
      rw [List.cons_append, hread, hread, hmap, hmap]
      exact hbehind

theorem refuses_nameList (context : String)
    {read : List String → List (List Char) → Except Failure α}
    (h : ∀ names, Refuses behind (read names)) :
    Refuses (.list false behind) fun lines =>
      nameList context lines >>= fun r => read r.1 r.2 := by
  have hread (lines : List (List Char)) :
      (nameList context lines >>= fun r => read r.1 r.2) =
        columnList context false lines >>= fun r => read (r.1.map (·.name)) r.2 := by
    unfold nameList
    cases columnList context false lines <;> rfl
  simp only [hread]
  exact refuses_columnList context fun columns => h (columns.map (·.name))

end

theorem refuses_sequence (s : Sequence) :
    Refuses .sequence fun lines => (SequenceBody.read s lines).outcome := by
  refine refuses_of_step (fun _ => .sequence)
    (fun s lines => (SequenceBody.read s lines).outcome) (fun s line more hline => ?_)
    (fun s line q hline => ?_) s
  · rw [Place.next?, Option.map_eq_none_iff] at hline
    rw [SequenceBody.read, hline]
    exact ⟨_, rfl⟩
  · rw [Place.next?] at hline
    obtain ⟨clause, hclause, rfl⟩ := Option.map_eq_some_iff.1 hline
    cases hset : SequenceBody.set s clause with
    | mk s' failure =>
      cases failure with
      | none => exact .inr ⟨s', rfl, fun rest => by simp only [SequenceBody.read, hclause, hset]⟩
      | some failure =>
        exact .inl ⟨failure, fun rest => by simp only [SequenceBody.read, hclause, hset]; rfl⟩

/-- The place of a tablespace inside and outside a list of containers. -/
def tablespacePlace (inList : Bool) : Place := if inList then .containers else .tablespace

theorem tablespacePlace_next? (inList : Bool) (line : List Char) :
    (tablespacePlace inList).next? line =
      match if inList then some line else containersStart? line with
      | some text => Place.containersNext? text
      | none => if isTablespaceAttribute line then some .tablespace else none := by
  cases inList <;> rfl

/-- A line of a tablespace has no place and is malformed, or leads to a place with what is read so
far. -/
theorem tablespace_read_step (t : Tablespace) (inList : Bool) (line : List Char) :
    ((tablespacePlace inList).next? line = none ∧
      ∃ cause, ∀ rest, TablespaceBody.read t inList (line :: rest) = .malformed t cause) ∨
    ∃ t' goesOn, (tablespacePlace inList).next? line = some (tablespacePlace goesOn) ∧
      ∀ rest, TablespaceBody.read t inList (line :: rest) =
        TablespaceBody.read t' goesOn rest := by
  simp only [tablespacePlace_next?, tablespace_read_cons]
  cases (if inList then some line else containersStart? line) with
  | some text =>
    simp only [Place.containersNext?]
    cases hempty : (Container.ofLine text).isEmpty with
    | true => exact .inl ⟨rfl, _, fun rest => rfl⟩
    | false => exact .inr ⟨_, _, rfl, fun rest => rfl⟩
  | none =>
    cases hattribute : isTablespaceAttribute line with
    | true => exact .inr ⟨t, false, rfl, fun rest => rfl⟩
    | false => exact .inl ⟨rfl, _, fun rest => rfl⟩

theorem refuses_tablespace (t : Tablespace) (inList : Bool) :
    Refuses (tablespacePlace inList) fun lines =>
      (TablespaceBody.read t inList lines).outcome := by
  refine refuses_of_step (fun s : Tablespace × Bool => tablespacePlace s.2)
    (fun s lines => (TablespaceBody.read s.1 s.2 lines).outcome) (fun s line more hline => ?_)
    (fun s line q hline => ?_) (t, inList)
  all_goals
    obtain ⟨hnone, cause, hread⟩ | ⟨t', goesOn, hnext, hread⟩ := tablespace_read_step s.1 s.2 line
  · exact ⟨cause, congrArg Reading.outcome (hread more)⟩
  · rw [hline] at hnext
    cases hnext
  · rw [hline] at hnone
    cases hnone
  · rw [hline] at hnext
    exact .inr ⟨(t', goesOn), (Option.some.inj hnext).symm,
      fun rest => congrArg Reading.outcome (hread rest)⟩

/-- The place that the next line of a table belongs to. -/
def TablePart.place : TablePart → Place
  | .columns => .columns
  | .identity _ => .identity
  | .storage => .storage

theorem isColumn_iff (shown : String) (c : ColumnLine) :
    Place.isColumn c = true ↔ TableBody.columnFault? shown c = none := by
  unfold TableBody.columnFault? Place.isColumn
  cases ColumnLine.isType c.type with
  | false => simp
  | true => cases c.clause <;> simp

theorem clauseEffect_place (c : ColumnLine) :
    (TableBody.clauseEffect c).2.place = Place.behindColumn c := by
  unfold TableBody.clauseEffect Place.behindColumn
  cases c.clause <;> cases c.closes <;> rfl

/-- The place behind an option of an identity, given what reading it tells of the list of
columns. -/
def optionPlace : Option Bool → Place
  | none => .identity
  | some closes => if closes then .storage else .columns

theorem integer_option_place {identity' : Identity} {f : Int → Identity × Option Bool}
    {value : List Char} {closes : Option Bool} (hf : ∀ n, (f n).2 = none)
    (h : (integer value).map f = .ok (identity', closes)) : closes = none := by
  cases hn : integer value with
  | error failure => rw [hn] at h; cases h
  | ok n =>
    rw [hn] at h
    exact (congrArg Prod.snd (Except.ok.inj h)).symm.trans (hf n)

theorem setOption_place {identity identity' : Identity} {clause : IdentityClause}
    {closes : Option Bool}
    (h : TableBody.setOption identity clause = .ok (identity', closes)) :
    Place.behindIdentity clause = optionPlace closes := by
  cases clause with
  | start value => rw [integer_option_place (fun _ => rfl) h]; rfl
  | increment value => rw [integer_option_place (fun _ => rfl) h]; rfl
  | minValue value => rw [integer_option_place (fun _ => rfl) h]; rfl
  | maxValue value => rw [integer_option_place (fun _ => rfl) h]; rfl
  | cycle on => cases h; rfl
  | cache digits =>
    cases digits with
    | none => cases h; rfl
    | some digits => rw [integer_option_place (fun _ => rfl) h]; rfl
  | order on closes => cases h; rfl

/-- Reading a line of a table leads to the place behind the line. -/
theorem effect_place {b b' : TableBody} {line : List Char} (h : TableBody.Effect b line b') :
    b.part.place.next? line = some b'.part.place := by
  cases h with
  | column c type notices part shape sound converted =>
    refine Eq.trans ?_ (congrArg some (clauseEffect_place c).symm)
    simp only [part, TablePart.place, Place.next?, shape, (isColumn_iff "" c).2 (sound ""), if_true]
  | closes part shape closing =>
    simp only [part, TablePart.place, Place.next?, shape, closing, if_true]
  | storage s shape part =>
    rcases part with part | ⟨part, hcolumn, hopen⟩
    · simp only [part, TablePart.place, Place.next?, Place.storageNext?, shape, Option.map_some]
    · simp only [part, TablePart.place, Place.next?, Place.storageNext?, hcolumn, hopen, shape,
        Option.map_some, Bool.false_eq_true, if_false]
  | option identity identity' clause part shape value =>
    simp only [part, TablePart.place, Place.next?, shape, Option.map_some, setOption_place value,
      optionPlace]
  | order identity identity' clause closes part shape value =>
    simp only [part, TablePart.place, Place.next?, shape, Option.map_some, setOption_place value]
    cases closes <;> rfl

theorem storageLine_malformed (shown : String) (number : Nat) (b : TableBody) {here : Place}
    {line : List Char} (h : Place.storageNext? here line = none) :
    ∃ cause, TableBody.storageLine shown number b line = (b, [], some (.malformed cause)) := by
  rw [Place.storageNext?, Option.map_eq_none_iff] at h
  rw [TableBody.storageLine, h]
  exact ⟨_, rfl⟩

theorem step_malformed (shown : String) (number : Nat) {b : TableBody} {line : List Char}
    (hnext : b.part.place.next? line = none) :
    ∃ cause, TableBody.step shown number b line = (b, [], some (.malformed cause)) := by
  unfold TableBody.step
  cases hpart : b.part with
  | identity identity =>
    rw [hpart, TablePart.place, Place.next?, Option.map_eq_none_iff] at hnext
    dsimp only
    rw [TableBody.identityLine, hnext]
    exact ⟨_, rfl⟩
  | storage =>
    rw [hpart] at hnext
    exact storageLine_malformed shown number b hnext
  | columns =>
    rw [hpart, TablePart.place, Place.next?] at hnext
    dsimp only
    cases hcolumn : ColumnLine.ofLine? line with
    | some c =>
      rw [hcolumn] at hnext
      dsimp only at hnext ⊢
      have hfault : TableBody.columnFault? shown c ≠ none := fun hnone => by
        rw [if_pos ((isColumn_iff shown c).2 hnone)] at hnext
        cases hnext
      obtain ⟨cause, hcause⟩ := Option.ne_none_iff_exists'.1 hfault
      exact ⟨cause, by rw [TableBody.addColumn, hcause]⟩
    | none =>
      rw [hcolumn] at hnext
      dsimp only at hnext ⊢
      split at hnext
      · cases hnext
      · next hopen =>
        rw [if_neg hopen]
        exact storageLine_malformed shown number b hnext

theorem refuses_table (shown : String) (number : Nat) (b : TableBody) :
    Refuses b.part.place fun lines => (TableBody.read shown number b lines).outcome := by
  refine refuses_of_step (fun b : TableBody => b.part.place)
    (fun b lines => (TableBody.read shown number b lines).outcome) (fun b line more hline => ?_)
    (fun b line q hline => ?_) b
  · obtain ⟨cause, hstep⟩ := step_malformed shown number hline
    rw [TableBody.read, hstep]
    exact ⟨cause, rfl⟩
  · cases hstep : TableBody.step shown number b line with
    | mk b' result =>
      obtain ⟨events, failure⟩ := result
      cases failure with
      | some failure =>
        refine .inl ⟨failure, fun rest => ?_⟩
        simp only [TableBody.read, hstep]
      | none =>
        obtain ⟨heffect, -⟩ | ⟨-, f, hfails⟩ := TableBody.step_cases hstep
        · have hplace := effect_place heffect
          rw [hline] at hplace
          refine .inr ⟨b', (Option.some.inj hplace).symm, fun rest => ?_⟩
          simp only [TableBody.read, hstep]
          rfl
        · cases hfails

theorem refuses_trailers (context : String) (k : ForeignKey) :
    Refuses .trailers (ForeignKeyBody.trailers context k) := by
  refine refuses_of_step (fun _ => .trailers) (ForeignKeyBody.trailers context)
    (fun k line more hline => ?_) (fun k line q hline => ?_) k
  · rw [Place.next?, Option.map_eq_none_iff] at hline
    rw [ForeignKeyBody.trailers, hline]
    exact ⟨_, rfl⟩
  · rw [Place.next?] at hline
    obtain ⟨trailer, htrailer, rfl⟩ := Option.map_eq_some_iff.1 hline
    refine .inr ⟨ForeignKeyBody.set k trailer, rfl, fun rest => ?_⟩
    simp only [ForeignKeyBody.trailers, htrailer]

theorem refuses_foreignKey (context : String) (name : Option String) :
    Refuses (.list false .references) (ForeignKeyBody.read context name) := by
  rw [funext (foreignKey_read_eq context name)]
  refine refuses_nameList context fun columns => refuses_of_next (fun line more hline => ?_)
    fun line q hline => ?_
  · rw [Place.next?, Option.map_eq_none_iff] at hline
    simp only [referencesFrom, List.headD_cons, hline]
    exact ⟨_, rfl⟩
  · rw [Place.next?] at hline
    obtain ⟨target, htarget, rfl⟩ := Option.map_eq_some_iff.1 hline
    simp only [referencesFrom, List.headD_cons, List.tail_cons, htarget]
    exact refuses_nameList context fun refColumns => refuses_trailers context
      { columns, refSchema := target.1, refTable := target.2, refColumns, name }

/-- Behind the end of a condition its code is known; before, only its beginning. -/
def checkState (context : String) (name : Option String) (s : List (List Char) × Bool)
    (lines : List (List Char)) : Except Failure Check :=
  if s.2 then checkFrom context name s.1 lines
  else checkFrom context name (s.1 ++ (CheckBody.condition lines).1) (CheckBody.condition lines).2

def checkPlace (ended : Bool) : Place := if ended then .checkTrailers else .condition

theorem refuses_check (context : String) (name : Option String) :
    Refuses .condition (CheckBody.read context name) := by
  rw [funext (check_read_eq context name)]
  refine refuses_of_step (fun s : List (List Char) × Bool => checkPlace s.2)
    (checkState context name) (fun s line more hline => ?_) (fun s line q hline => ?_) ([], false)
  all_goals obtain ⟨code, ended⟩ := s
  · cases ended with
    | false => cases hline
    | true =>
      refine ⟨.checkLine line context, ?_⟩
      have htrailer : CheckBody.isTrailer line = false := by
        simpa [checkPlace, Place.next?] using hline
      simp [checkState, checkFrom, htrailer]
  · refine .inr ?_
    cases ended with
    | false =>
      cases hends : endsCheck line with
      | true =>
        refine ⟨(code, true), by simpa [checkPlace, Place.next?, hends] using hline, fun rest => ?_⟩
        simp [checkState, CheckBody.condition, hends]
      | false =>
        refine ⟨(code ++ [trim line], false),
          by simpa [checkPlace, Place.next?, hends] using hline, fun rest => ?_⟩
        simp [checkState, CheckBody.condition, hends]
    | true =>
      cases htrailer : CheckBody.isTrailer line with
      | false => simp [checkPlace, Place.next?, htrailer] at hline
      | true =>
        refine ⟨(code, true), by simpa [checkPlace, Place.next?, htrailer] using hline,
          fun rest => ?_⟩
        simp [checkState, checkFrom, htrailer]

theorem refuses_indexTrailers (context : String) (index : Index) :
    Refuses .indexTrailers (indexFrom context index) := by
  refine refuses_of_step (fun _ : Unit => .indexTrailers) (fun _ => indexFrom context index)
    (fun _ line more hline => ?_) (fun _ line q hline => ?_) ()
  all_goals rw [Place.next?] at hline
  · split at hline
    · cases hline
    · next hno => exact ⟨_, indexFrom_stops context index (Bool.not_eq_true _ ▸ hno) more⟩
  · split at hline
    · next hyes => exact .inr ⟨(), Option.some.inj hline, indexFrom_cons context index hyes⟩
    · cases hline

theorem refuses_indexTail (context : String) (index : List String → Index) :
    Refuses .indexTail fun lines =>
      IndexBody.included context lines >>= fun i => indexFrom context (index i.1) i.2 := by
  refine refuses_of_next (fun line more hline => ?_) (fun line q hline => ?_)
  all_goals rw [Place.next?] at hline
  · cases hinclude : include? line with
    | some first =>
      rw [hinclude] at hline
      simp only [IndexBody.included, hinclude, nameList, columnList_stops hline]
      exact ⟨_, rfl⟩
    | none =>
      rw [hinclude] at hline
      dsimp only at hline
      split at hline
      · cases hline
      · next hno =>
        simp only [IndexBody.included, hinclude]
        exact ⟨_, indexFrom_stops context _ (Bool.not_eq_true _ ▸ hno) more⟩
  · cases hinclude : include? line with
    | some first =>
      rw [hinclude] at hline
      simp only [IndexBody.included, hinclude]
      exact (refuses_nameList (context ++ " INCLUDE") fun columns =>
        refuses_indexTrailers context (index columns)).next hline
    | none =>
      rw [hinclude] at hline
      dsimp only at hline
      split at hline
      · next hyes =>
        cases hline
        simp only [IndexBody.included, hinclude]
        have hread (rest : List (List Char)) : (Except.ok ([], line :: rest) >>= fun i =>
            indexFrom context (index i.1) i.2) = indexFrom context (index []) rest :=
          indexFrom_cons context (index []) hyes rest
        simp only [hread]
        exact refuses_indexTrailers context (index [])
      · cases hline

theorem refuses_index (context : String) (unique : Bool) (indexSchema name : String) :
    Refuses (.list true .indexTail) (IndexBody.read context unique indexSchema name) := by
  rw [funext (index_read_eq context unique indexSchema name)]
  exact refuses_columnList context fun columns => refuses_indexTail context fun includeColumns =>
    { name, indexSchema, unique, columns, includeColumns }

theorem refuses_key (context : String) (number : Nat) (name : Option String) :
    Refuses (.list false .nothing) (AlterBody.key context number name) := by
  rw [funext (key_eq context number name)]
  exact refuses_nameList context fun columns => refuses_nothing fun line more => ⟨_, rfl⟩

theorem refuses_extend (context : String) (number : Nat) (t : Table) (addition : Addition) :
    Refuses (Place.behindAddition addition) (AlterBody.extend context number t addition) := by
  cases addition with
  | primaryKey name => exact (refuses_key context number name).map _
  | unique name => exact (refuses_key context number name).map _
  | foreignKey name => exact (refuses_foreignKey context name).map _
  | check name => exact (refuses_check context name).map _

theorem refuses_alter (context : String) (number : Nat) (t : Table) :
    Refuses .addition fun lines => (AlterBody.read context number t lines).outcome := by
  refine refuses_of_next (fun line more hline => ?_) (fun line q hline => ?_)
  · rw [Place.next?, Option.map_eq_none_iff] at hline
    simp only [AlterBody.read, hline]
    exact ⟨_, rfl⟩
  · rw [Place.next?] at hline
    obtain ⟨addition, haddition, rfl⟩ := Option.map_eq_some_iff.1 hline
    simp only [AlterBody.read, haddition, Reading.after, ofExcept_outcome]
    exact (refuses_extend context number t addition).map _

theorem refuses_expectEnd {α : Type} (value : α) (statement : String) (number : Nat) :
    Refuses .nothing fun lines => (Reading.expectEnd value statement number lines).outcome :=
  refuses_nothing fun _ _ => ⟨_, rfl⟩

/-- Whether statements of a kind are taken without a look at the lines behind the first. -/
def overlooks : Kind → Bool
  | .ignored => true
  | .setSchema => true
  | .setPath => true
  | _ => false

/-- All forms but two look at every line, or keep it. -/
theorem refuses_perform (c : Catalog) (context : Context) (s : Statement) {form : Form}
    (h : form.kind ≠ .setSchema ∧ form.kind ≠ .setPath) :
    Refuses (Place.ofForm form) fun lines =>
      (perform c context { s with rest := lines } form).outcome := by
  cases form with
  | ignored => exact refuses_anything _
  | createTablespace name => exact refuses_tablespace _ false
  | createRole name => exact refuses_expectEnd _ _ _
  | commentRole name text => exact refuses_anything _
  | createSchema name owner => exact refuses_expectEnd _ _ _
  | createSequence schema name => exact refuses_sequence _
  | restartSequence schema name value =>
    simp only [perform, restartSequence]
    cases (c.schema schema).sequences.get? name with
    | none => exact refuses_error _ _
    | some q =>
      cases integer value with
      | error failure => exact refuses_error _ _
      | ok n => exact refuses_expectEnd _ _ _
  | createTable schema name =>
    exact refuses_table (TableBody.display schema name) s.number { table := { name } }
  | alterTable schema name =>
    simp only [perform, alterTable]
    cases c.table? schema name with
    | none => exact refuses_error _ _
    | some t => exact refuses_alter _ _ t
  | restartIdentity schema owner column value =>
    simp only [perform, restartIdentity]
    cases c.table? schema owner with
    | none => exact refuses_error _ _
    | some t =>
      dsimp only
      cases (t.column? column).bind (·.identity) with
      | none => exact refuses_error _ _
      | some identity =>
        cases integer value with
        | error failure => exact refuses_error _ _
        | ok n => exact refuses_expectEnd _ _ _
  | createIndex unique indexSchema name schema owner =>
    simp only [perform, createIndex]
    cases c.table? schema owner with
    | none => exact refuses_error _ _
    | some t =>
      simp only [ofExcept_outcome]
      exact ((refuses_index _ unique indexSchema name).map _).map _
  | commentColumn schema owner column text => exact refuses_anything _
  | commentTable schema name text => exact refuses_anything _
  | createDomain schema name base =>
    simp only [perform, createDomain]
    cases TypeName.convert (base.filter (· != '"')) with
    | error failure => exact refuses_error _ _
    | ok converted => exact refuses_expectEnd _ _ _
  | setSchema schema => exact absurd rfl h.1
  | setPath path => exact absurd rfl h.2
  | createView schema name first => exact refuses_anything _
  | createTrigger schema name first => exact refuses_anything _
  | commentTrigger schema name text => exact refuses_anything _
  | createFunction schema name first => exact refuses_anything _

end SchemaTransfer.Load
