import SchemaTransfer.Proofs.Except
import SchemaTransfer.Proofs.Load.Down
import SchemaTransfer.Proofs.Load.Leftover

/-!
# Where the columns of a table end

The list of columns ends with a parenthesis that stands on a line of its own, behind a column, or
behind the options of an identity. A table that is taken has at most one such line. It need not
have one: where the lines end inside the list and outside an identity, the table is taken as if the
parenthesis came next.
-/
namespace SchemaTransfer.Load
open Dump

namespace Place

/-- Whether a line at a place ends the list of columns. -/
def closes (p : Place) (line : List Char) : Bool :=
  match p with
  | .columns =>
    match ColumnLine.ofLine? line with
    | some c => behindColumn c == .storage
    | none => closesColumns line
  | .identity =>
    match IdentityClause.ofLine? line with
    | some (.order _ closes) => closes
    | _ => false
  | _ => false

/-- The number of lines that end the list of columns, as far as the lines have a place. -/
def closings (p : Place) : List (List Char) → Nat
  | [] => 0
  | line :: rest =>
    (p.closes line).toNat +
      match p.next? line with
      | some q => q.closings rest
      | none => 0

/-- The places of a table. -/
def ofTable (p : Place) : Prop := p = .columns ∨ p = .identity ∨ p = .storage

theorem storageNext?_eq_some {here q : Place} {line : List Char}
    (h : storageNext? here line = some q) : q = here := by
  obtain ⟨s, -, hq⟩ := Option.map_eq_some_iff.1 h
  exact hq.symm

/-- A line that ends the list leads to the storage, and no other line does that is not there
already. -/
theorem next?_ofTable {p q : Place} {line : List Char} (hp : p.ofTable)
    (h : p.next? line = some q) :
    q.ofTable ∧ (p.closes line).toNat + (if p = .storage then 1 else 0) =
      if q = .storage then 1 else 0 := by
  rcases hp with rfl | rfl | rfl
  · unfold next? closes at *
    cases hcolumn : ColumnLine.ofLine? line with
    | some c =>
      rw [hcolumn] at h
      dsimp only at h ⊢
      split at h
      · obtain rfl := Option.some.inj h
        unfold behindColumn
        cases c.clause <;> cases c.closes <;> simp [ofTable]
      · cases h
    | none =>
      rw [hcolumn] at h
      dsimp only at h ⊢
      split at h
      · next hcloses =>
        obtain rfl := Option.some.inj h
        simp [hcloses, ofTable]
      · next hopen =>
        rw [storageNext?_eq_some h]
        simp [hopen, ofTable]
  · unfold next? closes at *
    obtain ⟨clause, hclause, rfl⟩ := Option.map_eq_some_iff.1 h
    rw [hclause]
    cases clause with
    | order on closes => cases closes <;> simp [behindIdentity, ofTable]
    | _ => simp [behindIdentity, ofTable]
  · rw [storageNext?_eq_some h]
    simp [closes, ofTable]

theorem after?_ofTable {p q : Place} {lines : List (List Char)} (hp : p.ofTable)
    (h : p.after? lines = some q) :
    q.ofTable ∧ p.closings lines + (if p = .storage then 1 else 0) =
      if q = .storage then 1 else 0 := by
  induction lines generalizing p with
  | nil =>
    obtain rfl := Option.some.inj h
    exact ⟨hp, Nat.zero_add _⟩
  | cons line rest ih =>
    obtain ⟨next, hnext, hrest⟩ := after?_cons h
    obtain ⟨htable, hstep⟩ := next?_ofTable hp hnext
    obtain ⟨hend, hcount⟩ := ih htable hrest
    refine ⟨hend, ?_⟩
    rw [closings, hnext]
    dsimp only
    omega

end Place

theorem message?_integer {value : List Char} {failure : Failure}
    (h : integer value = .error failure) : failure.message? = none := by
  unfold integer at h
  split at h <;> cases h
  rfl

theorem message?_setOption {identity : Identity} {clause : IdentityClause} {failure : Failure}
    (h : TableBody.setOption identity clause = .error failure) : failure.message? = none := by
  cases clause with
  | start value | increment value | minValue value | maxValue value =>
    exact message?_integer (map_eq_error h)
  | cycle on => cases h
  | cache digits =>
    cases digits with
    | none => cases h
    | some digits => exact message?_integer (map_eq_error h)
  | order on closes => cases h

theorem message?_convert {type : List Char} {failure : Failure}
    (h : TypeName.convert type = .error failure) : failure.message? = none := by
  rcases convert_cases type with ⟨spelling, hok⟩ | ⟨name, digits, unit, hobject⟩
  · cases hok.symm.trans h
  · rw [hobject, TypeName.characterObject] at h
    cases hn : Numeral.natural? digits with
    | none =>
      rw [hn] at h
      cases h
      rfl
    | some n =>
      rw [hn] at h
      cases hm : TypeName.multiplier? unit with
      | none =>
        rw [hm] at h
        cases h
        rfl
      | some m =>
        rw [hm] at h
        dsimp only at h
        split at h <;> cases h

section

variable {shown : String} {number : Nat} {b : TableBody}

/-- A line that has a place fails on a number only. -/
theorem message?_step {b' : TableBody} {line : List Char} {events : List Event} {q : Place}
    {failure : Failure} (hstep : TableBody.step shown number b line = (b', events, some failure))
    (hnext : b.part.place.next? line = some q) : failure.message? = none := by
  unfold TableBody.step at hstep
  cases hpart : b.part with
  | identity identity =>
    rw [hpart] at hstep hnext
    obtain ⟨clause, hclause, -⟩ := Option.map_eq_some_iff.1 hnext
    unfold TableBody.identityLine at hstep
    rw [hclause] at hstep
    dsimp only at hstep
    split at hstep <;> cases hstep
    next hvalue => exact message?_setOption hvalue
  | storage =>
    rw [hpart] at hstep hnext
    obtain ⟨s, hs, -⟩ := Option.map_eq_some_iff.1 hnext
    unfold TableBody.storageLine at hstep
    rw [hs] at hstep
    cases hstep
  | columns =>
    rw [hpart] at hstep hnext
    simp only [TablePart.place, Place.next?] at hnext
    dsimp only at hstep
    cases hcolumn : ColumnLine.ofLine? line with
    | some c =>
      rw [hcolumn] at hstep hnext
      dsimp only at hstep hnext
      split at hnext
      · next hsound =>
        obtain ⟨type, notices, -, -, -, hnone⟩ | ⟨-, ⟨cause, hcause, -⟩ | ⟨-, -⟩⟩ :=
          TableBody.addColumn_cases hstep
        · cases hnone
        · rw [(isColumn_iff shown c).1 hsound] at hcause
          cases hcause
        · unfold TableBody.addColumn at hstep
          rw [(isColumn_iff shown c).1 hsound] at hstep
          dsimp only at hstep
          split at hstep <;> cases hstep
          next hconvert => exact message?_convert hconvert
      · cases hnext
    | none =>
      rw [hcolumn] at hstep hnext
      dsimp only at hstep hnext
      split at hnext
      · next hcloses =>
        rw [if_pos hcloses] at hstep
        cases hstep
      · next hopen =>
        rw [if_neg hopen] at hstep
        obtain ⟨s, hs, -⟩ := Option.map_eq_some_iff.1 hnext
        unfold TableBody.storageLine at hstep
        rw [hs] at hstep
        cases hstep

/-- Lines either stop the reading, whatever follows them, or lead it to the place behind them. -/
theorem read_append (shown : String) (number : Nat) (b : TableBody) (lines : List (List Char)) :
    (∃ r failure, r.outcome = .error failure ∧
      (∀ more, TableBody.read shown number b (lines ++ more) = r) ∧
      ((b.part.place.after? lines).isSome → failure.message? = none)) ∨
    ∃ b' events, b.part.place.after? lines = some b'.part.place ∧
      ∀ more, TableBody.read shown number b (lines ++ more) =
        (TableBody.read shown number b' more).after events := by
  induction lines generalizing b with
  | nil => exact .inr ⟨b, [], rfl, fun more => rfl⟩
  | cons line rest ih =>
    cases hstep : TableBody.step shown number b line with
    | mk next result =>
      obtain ⟨events, failure⟩ := result
      cases failure with
      | some failure =>
        refine .inl ⟨⟨next, events, .error failure⟩, failure, rfl, fun more => ?_, fun hplace => ?_⟩
        · rw [List.cons_append, TableBody.read, hstep]
        · obtain ⟨q, hq⟩ := Option.isSome_iff_exists.1 hplace
          obtain ⟨p, hp, -⟩ := Place.after?_cons hq
          exact message?_step hstep hp
      | none =>
        have hread (more : List (List Char)) :
            TableBody.read shown number b (line :: (rest ++ more)) =
              (TableBody.read shown number next (rest ++ more)).after events := by
          rw [TableBody.read, hstep]
        obtain ⟨heffect, -⟩ | ⟨-, f, hfails⟩ := TableBody.step_cases hstep
        · have hnext := effect_place heffect
          have hplace : b.part.place.after? (line :: rest) = next.part.place.after? rest := by
            rw [Place.after?, hnext, Option.bind_some]
          rw [hplace]
          obtain ⟨r, failure, hfails, hr, hnumber⟩ | ⟨b', later, hb', hr⟩ := ih next
          · refine .inl ⟨r.after events, failure, hfails, fun more => ?_, hnumber⟩
            rw [List.cons_append, hread, hr]
          · refine .inr ⟨b', events ++ later, hb', fun more => ?_⟩
            rw [List.cons_append, hread, hr]
            unfold Reading.after
            rw [List.append_assoc]
        · cases hfails

/-- What is wrong when no line is left does not depend on whether the list of columns has ended. -/
theorem read_nil_of_place (shown : String) (number : Nat) (h : b.part.place ≠ .identity) :
    TableBody.read shown number b [] =
      if b.table.columns.isEmpty then .malformed b (.noColumns shown number) else .done b := by
  rw [TableBody.read, TableBody.endFault?]
  split
  · next fault hfault =>
    split at hfault
    · next identity hpart =>
      rw [hpart] at h
      exact absurd rfl h
    · split at hfault
      · next hempty =>
        cases hfault
        rw [if_pos hempty]
      · cases hfault
  · next hfault =>
    split at hfault
    · cases hfault
    · split at hfault
      · cases hfault
      · next hcolumns => rw [if_neg hcolumns]

theorem read_parenthesis (h : b.part.place = .columns) :
    TableBody.read shown number b [[')']] =
      TableBody.read shown number { b with part := .storage } [] := by
  have hpart : b.part = .columns := by
    cases hpart : b.part with
    | columns => rfl
    | identity identity => rw [hpart] at h; cases h
    | storage => rw [hpart] at h; cases h
  have hstep : TableBody.step shown number b [')'] = ({ b with part := .storage }, [], none) := by
    rw [TableBody.step, hpart]
    rfl
  rw [TableBody.read.eq_2, hstep]
  rfl

end

section

variable {session : Session} {s : Statement} {schema name : String}

/-- The parenthesis behind an open list of columns changes nothing. -/
theorem createTable_parenthesis (c : Catalog) (number : Nat) {lines : List (List Char)}
    (h : Place.columns.after? lines = some .columns) :
    createTable c schema name number (lines ++ [[')']]) =
      createTable c schema name number lines := by
  unfold createTable
  obtain ⟨r, failure, -, hr, -⟩ | ⟨b, events, hb, hr⟩ :=
    read_append (TableBody.display schema name) number { table := { name } } lines
  · rw [hr, ← hr [], List.append_nil]
  · have hplace : b.part.place = .columns := Option.some.inj (hb.symm.trans h)
    have hopen := read_nil_of_place (TableBody.display schema name) number (b := b)
      (by rw [hplace]; decide)
    have hclosed := read_nil_of_place (TableBody.display schema name) number
      (b := { b with part := .storage }) nofun
    have hlines := hr []
    rw [List.append_nil] at hlines
    rw [hr, hlines, read_parenthesis hplace, hopen, hclosed]
    dsimp only
    split <;> rfl

/-- Lines fail, on a number only if they all have a place, or what comes of them is told by the
place behind them. -/
theorem createTable_outcome (c : Catalog) (schema name : String) (number : Nat)
    (lines : List (List Char)) :
    (∃ failure, (createTable c schema name number lines).outcome = .error failure ∧
      ((Place.columns.after? lines).isSome → failure.message? = none)) ∨
    ∃ q, Place.columns.after? lines = some q ∧
      if q = .identity then
        ∃ column, (createTable c schema name number lines).outcome =
          .error (.malformed (.identityUnterminated column))
      else (createTable c schema name number lines).outcome = .ok [] ∨
        (createTable c schema name number lines).outcome =
          .error (.malformed (.noColumns (TableBody.display schema name) number)) := by
  have houtcome : (createTable c schema name number lines).outcome =
      (TableBody.read (TableBody.display schema name) number { table := { name } } lines).outcome :=
    rfl
  rw [houtcome]
  obtain ⟨r, failure, hfails, hr, hnumber⟩ | ⟨b, events, hb, hr⟩ :=
    read_append (TableBody.display schema name) number { table := { name } } lines
  all_goals
    have hlines := hr []
    rw [List.append_nil] at hlines
    rw [hlines]
  · exact .inl ⟨failure, hfails, hnumber⟩
  · refine .inr ⟨b.part.place, hb, ?_⟩
    split
    · next hplace =>
      cases hpart : b.part with
      | columns => rw [hpart] at hplace; cases hplace
      | storage => rw [hpart] at hplace; cases hplace
      | identity identity =>
        rw [TableBody.read, TableBody.endFault?, hpart]
        exact ⟨_, rfl⟩
    · next hplace =>
      rw [read_nil_of_place _ _ hplace]
      split
      · exact .inr rfl
      · exact .inl rfl

/-- A statement that declares a table and is taken has one line that ends the list of columns, or
none. Where the lines end inside the list, the statement does the same as with the parenthesis
behind them. Inside the list as behind it, it fails only on a number or because no column was
declared. Where the lines end inside an identity, it fails. -/
theorem take_createTable (hform : Form.ofLine? s.first = some (.createTable schema name)) :
    (∀ left, (session.take s).outcome = .ok left →
      (Place.columns.after? s.rest = some .storage ∧ Place.columns.closings s.rest = 1) ∨
        Place.columns.after? s.rest = some .columns ∧ Place.columns.closings s.rest = 0) ∧
    (Place.columns.after? s.rest = some .columns →
      session.take { s with rest := s.rest ++ [[')']] } = session.take s) ∧
    (Place.columns.after? s.rest = some .columns ∨ Place.columns.after? s.rest = some .storage →
      (session.take s).outcome = .ok [] ∨
        ∃ failure, (session.take s).outcome = .error failure ∧
          (failure = .malformed (.noColumns (TableBody.display schema name) s.number) ∨
            failure.message? = none)) ∧
    (Place.columns.after? s.rest = some .identity →
      ∃ failure, (session.take s).outcome = .error failure ∧
        ((∃ column, failure = .malformed (.identityUnterminated column)) ∨
          failure.message? = none)) := by
  have htake : (session.take s).outcome =
      (createTable session.catalog schema name s.number s.rest).outcome :=
    take_outcome session s hform
  have hcases := createTable_outcome session.catalog schema name s.number s.rest
  rw [← htake] at hcases
  refine ⟨fun left hleft => ?_, fun hplace => ?_, fun hplace => ?_, fun hplace => ?_⟩
  · rcases hcases with ⟨failure, hfails, -⟩ | ⟨q, hplace, hend⟩
    · cases hleft.symm.trans hfails
    · obtain ⟨rfl | rfl | rfl, hcount⟩ := Place.after?_ofTable (.inl rfl) hplace
      · exact .inr ⟨hplace, hcount⟩
      · obtain ⟨column, hfails⟩ := hend
        cases hleft.symm.trans hfails
      · exact .inl ⟨hplace, hcount⟩
  · exact take_eq_of_perform hform hform (createTable_parenthesis session.catalog s.number hplace)
  · rcases hcases with ⟨failure, hfails, hnumber⟩ | ⟨q, hq, hend⟩
    · have hlines : (Place.columns.after? s.rest).isSome := by rcases hplace with h | h <;> simp [h]
      exact .inr ⟨failure, hfails, .inr (hnumber hlines)⟩
    · have hopen : q ≠ .identity := by
        rintro rfl
        rcases hplace with h | h <;> cases hq.symm.trans h
      rw [if_neg hopen] at hend
      rcases hend with hok | hempty
      · exact .inl hok
      · exact .inr ⟨_, hempty, .inl rfl⟩
  · rcases hcases with ⟨failure, hfails, hnumber⟩ | ⟨q, hq, hend⟩
    · exact ⟨failure, hfails, .inr (hnumber (Option.isSome_iff_exists.2 ⟨_, hplace⟩))⟩
    · obtain rfl := Option.some.inj (hplace.symm.trans hq)
      obtain ⟨column, hfails⟩ := hend
      exact ⟨_, hfails, .inl ⟨column, rfl⟩⟩

end

/-- The parenthesis behind the second column is missing. -/
def cutOff : Statement where
  first := "CREATE TABLE \"S\".\"T\"  (".toList
  rest := ["  \"A\" INTEGER ,".toList, "  \"B\" INTEGER".toList]
  number := 1

theorem take_createTable_cutOff :
    Form.ofLine? cutOff.first = some (.createTable "S" "T") ∧
      Place.columns.closings cutOff.rest = 0 ∧
      (({} : Session).take cutOff).outcome = .ok [] ∧
      ({} : Session).take { cutOff with rest := cutOff.rest ++ [[')']] } =
        ({} : Session).take cutOff := by
  have hform : Form.ofLine? cutOff.first = some (.createTable "S" "T") := by decide +kernel
  obtain ⟨-, hparenthesis, -⟩ := take_createTable hform
  exact ⟨hform, by decide +kernel, eq_ok_of_toOption (by decide +kernel),
    hparenthesis (by decide +kernel)⟩

/-- It is not true that the list of columns of a table that is taken has ended. -/
theorem columns_left_open : ¬∀ (session : Session) (s : Statement) (schema name : String)
    (left : List (List Char)), Form.ofLine? s.first = some (.createTable schema name) →
      (session.take s).outcome = .ok left → Place.columns.closings s.rest = 1 := by
  intro h
  have hcount := h {} cutOff "S" "T" [] (by decide +kernel) (eq_ok_of_toOption (by decide +kernel))
  have hopen : Place.columns.closings cutOff.rest = 0 := by decide +kernel
  cases hopen.symm.trans hcount

end SchemaTransfer.Load
