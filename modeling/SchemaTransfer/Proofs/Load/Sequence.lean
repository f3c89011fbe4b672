import SchemaTransfer.Proofs.Dump.SequenceText
import SchemaTransfer.Proofs.Except
import SchemaTransfer.Proofs.Load.Leftover

/-!
# Sequences of a dump

Each line of a sequence sets the values of one group, so what is stored has for each group the
values of its last line, and lines of different groups may change places. A clause that shares its
line with another group is not read.
-/
namespace SchemaTransfer.Load
open Unicode Dump

/-- A sequence has what a clause says. -/
def Records (q : Sequence) : SequenceClause → Prop
  | .minValue v => ∃ n, integer v = .ok n ∧ q.minValue = some n
  | .maxValue v => ∃ n, integer v = .ok n ∧ q.maxValue = some n
  | .start v => ∃ n, integer v = .ok n ∧ q.start = some n
  | .increment v => ∃ n, integer v = .ok n ∧ q.increment = n
  | .cache none => q.cache = some 1
  | .cache (some ds) => ∃ n, integer ds = .ok n ∧ q.cache = some n
  | .cycle on => q.cycle = on

inductive Group
  | range
  | start
  | cache
  deriving DecidableEq

/-- The group that a line sets. -/
def group : SequenceLine → Group
  | .range _ _ => .range
  | .start _ _ => .start
  | .cache _ _ => .cache

/-- Two sequences have the same values of a group. -/
def SameIn (q r : Sequence) : Group → Prop
  | .range => q.minValue = r.minValue ∧ q.maxValue = r.maxValue
  | .start => q.start = r.start ∧ q.increment = r.increment
  | .cache => q.cache = r.cache ∧ q.cycle = r.cycle

theorem SameIn.refl (q : Sequence) (k : Group) : SameIn q q k := by
  cases k <;> exact ⟨rfl, rfl⟩

theorem SameIn.trans {q r s : Sequence} {k : Group} (h : SameIn q r k) (h' : SameIn r s k) :
    SameIn q s k := by
  cases k <;> exact ⟨h.1.trans h'.1, h.2.trans h'.2⟩

theorem SameIn.records {q r : Sequence} {g : SequenceLine} (h : SameIn q r (group g))
    (hr : ∀ c ∈ g.clauses, Records r c) : ∀ c ∈ g.clauses, Records q c := by
  cases g with
  | range least greatest | start value step =>
    simp only [SequenceLine.clauses, List.mem_cons, List.not_mem_nil, or_false, forall_eq_or_imp,
      forall_eq, Records] at hr ⊢
    rwa [h.1, h.2]
  | cache digits on =>
    cases digits <;>
    · simp only [SequenceLine.clauses, List.mem_cons, List.not_mem_nil, or_false, forall_eq_or_imp,
        forall_eq, Records] at hr ⊢
      rwa [h.1, h.2]

theorem eq_of_integer {α : Type} {f : Int → α} {v : List Char} {x y : α}
    (hx : ∃ n, integer v = .ok n ∧ x = f n) (hy : ∃ n, integer v = .ok n ∧ y = f n) : x = y := by
  obtain ⟨n, hn, rfl⟩ := hx
  obtain ⟨m, hm, rfl⟩ := hy
  obtain rfl := Except.ok.inj (hn.symm.trans hm)
  rfl

/-- The clauses of a line leave no choice for the values of its group. -/
theorem sameIn_of_records {q r : Sequence} {g : SequenceLine} (hq : ∀ c ∈ g.clauses, Records q c)
    (hr : ∀ c ∈ g.clauses, Records r c) : SameIn q r (group g) := by
  cases g with
  | range least greatest | start value step =>
    simp only [SequenceLine.clauses, List.mem_cons, List.not_mem_nil, or_false, forall_eq_or_imp,
      forall_eq, Records] at hq hr
    exact ⟨eq_of_integer hq.1 hr.1, eq_of_integer hq.2 hr.2⟩
  | cache digits on =>
    simp only [SequenceLine.clauses, List.mem_cons, List.not_mem_nil, or_false, forall_eq_or_imp,
      forall_eq] at hq hr
    refine ⟨?_, Eq.trans hq.2 (Eq.symm hr.2)⟩
    cases digits with
    | none => exact Eq.trans hq.1 (Eq.symm hr.1)
    | some ds => exact eq_of_integer hq.1 hr.1

theorem sequence_ext {q r : Sequence} (hname : q.name = r.name)
    (hrestart : q.restartWith = r.restartWith) (h : ∀ k, SameIn q r k) : q = r := by
  obtain ⟨hmin, hmax⟩ := h .range
  obtain ⟨hstart, hincrement⟩ := h .start
  obtain ⟨hcache, hcycle⟩ := h .cache
  cases q
  cases r
  simp_all

/-- No numeral of a line is too long. -/
def Fits (g : SequenceLine) : Prop := ∀ v ∈ g.numerals, ∃ n, integer v = .ok n

/-- `q'` has the values of a line, and all else from `q`. -/
structure SetTo (q : Sequence) (g : SequenceLine) (q' : Sequence) : Prop where
  name : q'.name = q.name
  restartWith : q'.restartWith = q.restartWith
  records : ∀ c ∈ g.clauses, Records q' c
  others : ∀ k, k ≠ group g → SameIn q' q k

theorem integer_cases (v : List Char) :
    (∃ n, integer v = .ok n) ∨ integer v = .error .longNumber := by
  unfold integer
  cases Numeral.integer? v with
  | none => exact .inr rfl
  | some n => exact .inl ⟨n, rfl⟩

theorem setTwo_cases (q : Sequence) (a b : List Char) (f g : Sequence → Int → Sequence) :
    (∃ n m, integer a = .ok n ∧ integer b = .ok m ∧
      SequenceBody.setTwo q a b f g = (g (f q n) m, none)) ∨
    (¬∀ v ∈ [a, b], ∃ n, integer v = .ok n) ∧
      (SequenceBody.setTwo q a b f g).2 = some .longNumber := by
  unfold SequenceBody.setTwo
  rcases integer_cases a with ⟨n, ha⟩ | ha
  · rw [ha]
    rcases integer_cases b with ⟨m, hb⟩ | hb
    · rw [hb]
      exact .inl ⟨n, m, rfl, rfl, rfl⟩
    · rw [hb]
      exact .inr ⟨fun h => by simpa [hb] using h b (by simp), rfl⟩
  · rw [ha]
    exact .inr ⟨fun h => by simpa [ha] using h a (by simp), rfl⟩

theorem set_cases (q : Sequence) (g : SequenceLine) :
    (Fits g ∧ ∃ q', SequenceBody.set q g = (q', none) ∧ SetTo q g q') ∨
      ¬Fits g ∧ (SequenceBody.set q g).2 = some .longNumber := by
  unfold SequenceBody.set Fits
  cases g with
  | range a b | start a b =>
    dsimp only [SequenceLine.numerals]
    rcases setTwo_cases q a b _ _ with ⟨n, m, ha, hb, hset⟩ | hlong
    · refine .inl ⟨by simp [ha, hb], _, hset, rfl, rfl, ?_, fun k hk => ?_⟩
      · simp [SequenceLine.clauses, Records, ha, hb]
      · cases k <;> first | exact absurd rfl hk | exact ⟨rfl, rfl⟩
    · exact .inr hlong
  | cache digits on =>
    cases digits with
    | none =>
      refine .inl ⟨by simp [SequenceLine.numerals], _, rfl, rfl, rfl, ?_, fun k hk => ?_⟩
      · simp [SequenceLine.clauses, Records]
      · cases k <;> first | exact absurd rfl hk | exact ⟨rfl, rfl⟩
    | some ds =>
      dsimp only [SequenceLine.numerals]
      rcases integer_cases ds with ⟨n, hds⟩ | hds
      · rw [hds]
        refine .inl ⟨by simp [hds], _, rfl, rfl, rfl, ?_, fun k hk => ?_⟩
        · simp [SequenceLine.clauses, Records, hds]
        · cases k <;> first | exact absurd rfl hk | exact ⟨rfl, rfl⟩
      · rw [hds]
        exact .inr ⟨by simp [hds], rfl⟩

/-- What the last line of a group says. -/
def lastOf (k : Group) (lines : List (List Char)) : Option SequenceLine :=
  ((lines.filterMap SequenceLine.ofLine?).filter (group · = k)).getLast?

theorem lastOf_cons {k : Group} {line : List Char} {g : SequenceLine}
    (h : SequenceLine.ofLine? line = some g) (rest : List (List Char)) :
    lastOf k (line :: rest) = (lastOf k rest).or (if group g = k then some g else none) := by
  unfold lastOf
  rw [List.filterMap_cons_some h]
  split
  · next hk =>
    rw [List.filter_cons_of_pos (by simpa using hk), List.getLast?_cons]
    cases ((rest.filterMap SequenceLine.ofLine?).filter (group · = k)).getLast? <;> rfl
  · next hk => rw [List.filter_cons_of_neg (by simpa using hk), Option.or_none]

theorem group_of_lastOf {k : Group} {lines : List (List Char)} {g : SequenceLine}
    (h : lastOf k lines = some g) : group g = k := by
  simpa using (List.mem_filter.1 (List.mem_of_getLast? h)).2

/-- `q'` has for each group the values of the last line, and all else from `q`. -/
structure SetBy (q : Sequence) (lines : List (List Char)) (q' : Sequence) : Prop where
  name : q'.name = q.name
  restartWith : q'.restartWith = q.restartWith
  records {k : Group} {g : SequenceLine} (last : lastOf k lines = some g) :
    ∀ c ∈ g.clauses, Records q' c
  others {k : Group} (none : lastOf k lines = none) : SameIn q' q k

theorem SetBy.nil (q : Sequence) : SetBy q [] q := ⟨rfl, rfl, nofun, fun _ => .refl q _⟩

theorem SetBy.cons {q q' r : Sequence} {line : List Char} {rest : List (List Char)}
    {g : SequenceLine} (hline : SequenceLine.ofLine? line = some g) (hg : SetTo q g q')
    (hrest : SetBy q' rest r) : SetBy q (line :: rest) r := by
  refine ⟨hrest.name.trans hg.name, hrest.restartWith.trans hg.restartWith, ?_, ?_⟩
  · intro k g' hlast
    rw [lastOf_cons hline] at hlast
    rcases Option.or_eq_some_iff.1 hlast with hlater | ⟨hnone, hhere⟩
    · exact hrest.records hlater
    · split at hhere
      · next hk =>
        obtain rfl := Option.some.inj hhere
        subst hk
        exact (hrest.others hnone).records hg.records
      · cases hhere
  · intro k hnone
    rw [lastOf_cons hline] at hnone
    obtain ⟨hlater, hhere⟩ := Option.or_eq_none_iff.1 hnone
    refine (hrest.others hlater).trans (hg.others k fun hk => ?_)
    rw [if_pos hk.symm] at hhere
    cases hhere

/-- Only the last lines matter. -/
theorem SetBy.unique {q r r' : Sequence} {lines lines' : List (List Char)} (h : SetBy q lines r)
    (h' : SetBy q lines' r') (hlast : ∀ k, lastOf k lines' = lastOf k lines) : r' = r := by
  refine sequence_ext (h'.name.trans h.name.symm) (h'.restartWith.trans h.restartWith.symm)
    fun k => ?_
  cases hk : lastOf k lines with
  | none =>
    have hsame := h.others hk
    have hsame' := h'.others ((hlast k).trans hk)
    cases k <;> exact ⟨hsame'.1.trans hsame.1.symm, hsame'.2.trans hsame.2.symm⟩
  | some g =>
    have hrecords := sameIn_of_records (h'.records ((hlast k).trans hk)) (h.records hk)
    rwa [group_of_lastOf hk] at hrecords

/-- Every line is that of a group, and its numerals are not too long. -/
def AllSet (lines : List (List Char)) : Prop :=
  ∀ line ∈ lines, ∃ g, SequenceLine.ofLine? line = some g ∧ Fits g

/-- A line that is not of a group, or a numeral on it that is too long. -/
def RefusedFor (lines : List (List Char)) (failure : Failure) : Prop :=
  ∃ line ∈ lines,
    (SequenceLine.ofLine? line = none ∧ failure = .malformed (.sequenceLine line)) ∨
      ∃ g, SequenceLine.ofLine? line = some g ∧ ¬Fits g ∧ failure = .longNumber

theorem sequence_read_cases (q : Sequence) (lines : List (List Char)) :
    (AllSet lines ∧ ∃ r, SequenceBody.read q lines = .done r ∧ SetBy q lines r) ∨
      ¬AllSet lines ∧ ∃ failure, (SequenceBody.read q lines).outcome = .error failure ∧
        RefusedFor lines failure := by
  induction lines generalizing q with
  | nil => exact .inl ⟨nofun, q, rfl, .nil q⟩
  | cons line rest ih =>
    rw [SequenceBody.read]
    cases hline : SequenceLine.ofLine? line with
    | none =>
      refine .inr ⟨fun h => ?_, _, rfl, line, List.mem_cons_self, .inl ⟨hline, rfl⟩⟩
      obtain ⟨g, hg, -⟩ := h line List.mem_cons_self
      cases hline.symm.trans hg
    | some g =>
      dsimp only
      rcases set_cases q g with ⟨hfits, q', hset, hto⟩ | ⟨hlong, hset⟩
      · rw [hset]
        rcases ih q' with ⟨hall, r, hread, hby⟩ | ⟨hnot, failure, hfails, line', hmem, hwhy⟩
        · exact .inl ⟨List.forall_mem_cons.2 ⟨⟨g, hline, hfits⟩, hall⟩, r, hread,
            hby.cons hline hto⟩
        · exact .inr ⟨fun h => hnot (List.forall_mem_cons.1 h).2, failure, hfails, line',
            List.mem_cons_of_mem line hmem, hwhy⟩
      · cases hpair : SequenceBody.set q g with | mk q' failure =>
        rw [hpair] at hset
        obtain rfl : failure = some .longNumber := hset
        refine .inr ⟨fun h => ?_, _, rfl, line, List.mem_cons_self, .inr ⟨g, hline, hlong, rfl⟩⟩
        obtain ⟨g', hg', hfits⟩ := h line List.mem_cons_self
        obtain rfl := Option.some.inj (hline.symm.trans hg')
        exact hlong hfits

theorem allSet_perm {lines more : List (List Char)} (h : more.Perm lines) :
    AllSet more ↔ AllSet lines :=
  forall_congr' fun _ => imp_congr_left h.mem_iff

theorem sequence_read_perm (q : Sequence) {lines more : List (List Char)} (hall : AllSet lines)
    (hperm : more.Perm lines) (hlast : ∀ k, lastOf k more = lastOf k lines) :
    SequenceBody.read q more = SequenceBody.read q lines := by
  rcases sequence_read_cases q lines with ⟨-, r, hread, hby⟩ | ⟨hnot, -⟩
  · rcases sequence_read_cases q more with ⟨-, r', hread', hby'⟩ | ⟨hnot, -⟩
    · rw [hread, hread', hby.unique hby' hlast]
    · exact absurd ((allSet_perm hperm).2 hall) hnot
  · exact absurd hall hnot

/-- Every clause on a line is of the group that the line sets, and no two lines set the same. -/
structure OneGroupEach (lines : List (List Char)) : Prop where
  own : ∀ line ∈ lines, ∀ c ∈ SequenceClause.ofLine line,
    ∃ g, SequenceLine.ofLine? line = some g ∧ c ∈ g.clauses
  distinct : ((lines.filterMap SequenceLine.ofLine?).map group).Nodup

theorem filter_group {gs : List SequenceLine} (h : (gs.map group).Nodup) {g : SequenceLine}
    (hg : g ∈ gs) : gs.filter (group · = group g) = [g] := by
  induction gs with
  | nil => cases hg
  | cons g' gs ih =>
    obtain ⟨hnotin, hnodup⟩ := List.nodup_cons.1 h
    rcases List.mem_cons.1 hg with rfl | hg
    · rw [List.filter_cons_of_pos (by simp), List.filter_eq_nil_iff.2]
      intro g' hg' hsame
      exact hnotin (of_decide_eq_true hsame ▸ List.mem_map_of_mem hg')
    · have hne : group g' ≠ group g := fun hsame => hnotin (hsame ▸ List.mem_map_of_mem hg)
      rw [List.filter_cons_of_neg (by simpa using hne), ih hnodup hg]

namespace OneGroupEach

variable {lines : List (List Char)}

theorem lastOf_eq (h : OneGroupEach lines) {line : List Char} (hline : line ∈ lines)
    {g : SequenceLine} (hg : SequenceLine.ofLine? line = some g) :
    lastOf (group g) lines = some g := by
  rw [lastOf, filter_group h.distinct (List.mem_filterMap.2 ⟨line, hline, hg⟩)]
  rfl

theorem lastOf_perm (h : OneGroupEach lines) {more : List (List Char)} (hperm : more.Perm lines)
    (k : Group) : lastOf k more = lastOf k lines := by
  have hfilter := (hperm.filterMap SequenceLine.ofLine?).filter (group · = k)
  unfold lastOf
  cases hk : (lines.filterMap SequenceLine.ofLine?).filter (group · = k) with
  | nil =>
    rw [hk] at hfilter
    rw [hfilter.eq_nil]
  | cons g gs =>
    have hmem : g ∈ (lines.filterMap SequenceLine.ofLine?).filter (group · = k) := by
      rw [hk]
      exact List.mem_cons_self
    obtain ⟨hg, hgroup⟩ := List.mem_filter.1 hmem
    obtain rfl : group g = k := of_decide_eq_true hgroup
    rw [filter_group h.distinct hg] at hfilter hk
    rw [List.perm_singleton.1 hfilter, hk]

end OneGroupEach

/-- The sequence of a name, which is declared anew if it is not there. -/
def sequenceOf (c : Catalog) (schema name : String) : Sequence :=
  ((c.schema schema).sequences.get? name).getD { name }

variable {session : Session} {s : Statement} {schema name : String}

theorem take_createSequence_cases (session : Session)
    (hform : Form.ofLine? s.first = some (.createSequence schema name)) :
    (AllSet s.rest ∧ ∃ q, SetBy (sequenceOf session.catalog schema name) s.rest q ∧
      (session.take s).outcome = .ok [] ∧
      (session.take s).session.catalog = session.catalog.modifySchema schema fun x =>
        { x with sequences := x.sequences.insert name q }) ∨
    ¬AllSet s.rest ∧ ∃ failure, (session.take s).outcome = .error failure ∧
      RefusedFor s.rest failure := by
  unfold Session.take
  rw [hform]
  dsimp only [perform]
  unfold createSequence
  rcases sequence_read_cases (((session.catalog.schema schema).sequences.get? name).getD { name })
    s.rest with ⟨hall, q, hread, hby⟩ | ⟨hnot, failure, hfails, hwhy⟩
  · rw [hread]
    exact .inl ⟨hall, q, hby, rfl, rfl⟩
  · exact .inr ⟨hnot, failure, hfails, hwhy⟩

/-- A statement that declares a sequence is taken exactly if each of its lines is that of a group,
with no numeral too long. What is stored has for each group the values of its last line and is
otherwise as it was; the values are written on the lines, and lines that change places without
another line becoming the last of its group do the same. If each line has the clauses of one group
and no two lines are of one group, then every clause on them is recorded, in whatever order they
stand. -/
theorem take_createSequence (hform : Form.ofLine? s.first = some (.createSequence schema name)) :
    ((session.take s).outcome = .ok [] ↔ AllSet s.rest) ∧
    (∀ failure, (session.take s).outcome = .error failure → RefusedFor s.rest failure) ∧
    (∀ line ∈ s.rest, ∀ g, SequenceLine.ofLine? line = some g →
      ∀ c ∈ g.clauses, c ∈ SequenceClause.ofLine line) ∧
    ((session.take s).outcome = .ok [] →
      (∃ q, SetBy (sequenceOf session.catalog schema name) s.rest q ∧
        ((session.take s).session.catalog = session.catalog.modifySchema schema fun x =>
          { x with sequences := x.sequences.insert name q }) ∧
        (OneGroupEach s.rest → ∀ line ∈ s.rest, ∀ c ∈ SequenceClause.ofLine line, Records q c)) ∧
      ∀ more, more.Perm s.rest →
        ((∀ k, lastOf k more = lastOf k s.rest) ∨ OneGroupEach s.rest) →
          (session.take { s with rest := more }) = session.take s) := by
  have hcases := take_createSequence_cases session hform
  refine ⟨?_, fun failure hfails => ?_, fun line _ g => SequenceLine.clauses_mem_ofLine,
    fun hok => ⟨?_, fun more hperm hlast => ?_⟩⟩
  · rcases hcases with ⟨hall, q, -, hok, -⟩ | ⟨hnot, failure, hfails, -⟩
    · exact iff_of_true hok hall
    · exact iff_of_false (fun hok => by cases hok.symm.trans hfails) hnot
  · rcases hcases with ⟨-, q, -, hok, -⟩ | ⟨-, failure', hfails', hwhy⟩
    · cases hok.symm.trans hfails
    · obtain rfl := Except.error.inj (hfails.symm.trans hfails')
      exact hwhy
  · rcases hcases with ⟨-, q, hby, -, hcatalog⟩ | ⟨-, failure, hfails, -⟩
    · refine ⟨q, hby, hcatalog, fun hone line hline c hc => ?_⟩
      obtain ⟨g, hg, hc⟩ := hone.own line hline c hc
      exact hby.records (hone.lastOf_eq hline hg) c hc
    · cases hok.symm.trans hfails
  · have hall : AllSet s.rest := by
      rcases hcases with ⟨hall, -⟩ | ⟨-, failure, hfails, -⟩
      · exact hall
      · cases hok.symm.trans hfails
    have hlast : ∀ k, lastOf k more = lastOf k s.rest :=
      hlast.elim id fun hone => hone.lastOf_perm hperm
    refine take_eq_of_perform hform hform ?_
    dsimp only [perform, createSequence]
    rw [sequence_read_perm _ hall hperm hlast]

/-- Three lines, each with the clauses of one group. -/
def counter : Statement where
  first := "CREATE SEQUENCE \"S\".\"Q\" AS INTEGER".toList
  rest := ["  MINVALUE 1 MAXVALUE 9".toList, "  START WITH 5 INCREMENT BY 2".toList,
    "  CACHE 20 NO CYCLE NO ORDER".toList]
  number := 1

theorem take_createSequence_counter :
    Form.ofLine? counter.first = some (.createSequence "S" "Q") ∧
      (({} : Session).take counter).outcome = .ok [] ∧
      (∃ q : Sequence, Records q (.minValue ['1']) ∧ Records q (.increment ['2']) ∧
        (({} : Session).take counter).session.catalog =
          ({} : Catalog).modifySchema "S" fun x =>
            { x with sequences := x.sequences.insert "Q" q }) ∧
      ({} : Session).take { counter with rest := counter.rest.reverse } =
        ({} : Session).take counter := by
  have hform : Form.ofLine? counter.first = some (.createSequence "S" "Q") := by decide +kernel
  have hok : (({} : Session).take counter).outcome = .ok [] :=
    eq_ok_of_toOption (by decide +kernel)
  have hone : OneGroupEach counter.rest := by
    refine ⟨fun line hline c hc => ?_, by decide +kernel⟩
    have hall : ∀ line ∈ counter.rest, ∀ c ∈ SequenceClause.ofLine line,
        c ∈ ((SequenceLine.ofLine? line).map SequenceLine.clauses).getD [] := by decide +kernel
    have hmem := hall line hline c hc
    cases hg : SequenceLine.ofLine? line with
    | none => simp [hg] at hmem
    | some g => exact ⟨g, rfl, by simpa [hg] using hmem⟩
  obtain ⟨-, -, -, htaken⟩ := take_createSequence hform
  obtain ⟨⟨q, -, hcatalog, hrecords⟩, hperm⟩ := htaken hok
  refine ⟨hform, hok, ⟨q, ?_, ?_, hcatalog⟩, hperm _ (List.reverse_perm _) (.inr hone)⟩
  · exact hrecords hone "  MINVALUE 1 MAXVALUE 9".toList (by decide +kernel) _ (by decide +kernel)
  · exact hrecords hone "  START WITH 5 INCREMENT BY 2".toList (by decide +kernel) _
      (by decide +kernel)

/-- Both groups stand on one line. -/
def crowded : Statement where
  first := "CREATE SEQUENCE \"S\".\"Q\"".toList
  rest := ["  MINVALUE 1 MAXVALUE 9 START WITH 5 INCREMENT BY 2".toList,
    "  CACHE 20 NO CYCLE NO ORDER".toList]
  number := 1

/-- It is not true that every clause on the lines of a sequence that is taken is recorded. -/
theorem clause_overlooked : ¬∀ (session : Session) (s : Statement) (schema name : String)
    (q : Sequence), Form.ofLine? s.first = some (.createSequence schema name) →
      (session.take s).outcome = .ok [] →
        ((session.take s).session.catalog.schema schema).sequences.get? name = some q →
          ∀ line ∈ s.rest, ∀ c ∈ SequenceClause.ofLine line, Records q c := by
  intro h
  obtain ⟨q, hq⟩ : ∃ q, ((({} : Session).take crowded).session.catalog.schema "S").sequences.get?
      "Q" = some q ∧ q.start = none := by
    refine ⟨{ name := "Q", minValue := some 1, maxValue := some 9, cache := some 20 }, ?_, rfl⟩
    decide +kernel
  obtain ⟨n, -, hn⟩ := h {} crowded "S" "Q" q (by decide +kernel)
    (eq_ok_of_toOption (by decide +kernel)) hq.1
    "  MINVALUE 1 MAXVALUE 9 START WITH 5 INCREMENT BY 2".toList (by decide +kernel)
    (.start ['5']) (by decide +kernel)
  cases hq.2.symm.trans hn

end SchemaTransfer.Load
