import SchemaTransfer.Proofs.Dump.Fragment

/-!
# Clauses of a sequence as they are written

A line of a sequence is read as one group of clauses, whatever else it holds. Here the clauses are
looked for one by one at every place of the line, so those that are read can be compared with those
that are there.
-/
namespace SchemaTransfer.Dump
open Unicode Scan

/-- A clause of a sequence. Numbers are given by their numerals. -/
inductive SequenceClause
  | minValue (value : List Char)
  | maxValue (value : List Char)
  | start (value : List Char)
  | increment (value : List Char)
  /-- No digits for `NO CACHE`. -/
  | cache (digits : Option (List Char))
  | cycle (on : Bool)
  deriving DecidableEq

namespace SequenceClause

/-- The clause of a word and a number. -/
def numbered (w : String) (clause : List Char → SequenceClause) (cs : List Char) :
    Option SequenceClause := do
  let cs ← literal? w cs
  let (value, _) ← number? cs
  return clause value

def cached (cs : List Char) : Option SequenceClause := do
  let cs ← literal? "CACHE " cs
  let (ds, _) ← digits? cs
  return cache (some ds)

/-- The clauses that start where `front` ends. Behind `NO`, `CYCLE` is no clause of its own. -/
def startingAt (front cs : List Char) : List SequenceClause :=
  [numbered "MINVALUE " minValue cs, numbered "MAXVALUE " maxValue cs,
    numbered "START WITH " start cs, numbered "INCREMENT BY " increment cs,
    (literal? "NO CACHE" cs).map fun _ => cache none, cached cs,
    (literal? "NO CYCLE" cs).map fun _ => cycle false,
    if "NO ".toList.isSuffixOf front then none
    else (literal? "CYCLE" cs).map fun _ => cycle true].filterMap id

theorem mem_startingAt {front cs : List Char} {clause : SequenceClause} :
    clause ∈ startingAt front cs ↔
      numbered "MINVALUE " minValue cs = some clause ∨
      numbered "MAXVALUE " maxValue cs = some clause ∨
      numbered "START WITH " start cs = some clause ∨
      numbered "INCREMENT BY " increment cs = some clause ∨
      ((literal? "NO CACHE" cs).map fun _ => cache none) = some clause ∨
      cached cs = some clause ∨
      ((literal? "NO CYCLE" cs).map fun _ => cycle false) = some clause ∨
      (if "NO ".toList.isSuffixOf front then none
        else (literal? "CYCLE" cs).map fun _ => cycle true) = some clause := by
  rw [startingAt, List.mem_filterMap]
  simp only [List.mem_cons, List.not_mem_nil, or_false, id_eq, exists_eq_right,
    @eq_comm _ (some clause)]

/-- All clauses on a line. -/
def ofLine (line : List Char) : List SequenceClause :=
  (List.range (line.length + 1)).flatMap fun n => startingAt (line.take n) (line.drop n)

theorem mem_ofLine {line : List Char} {clause : SequenceClause} :
    clause ∈ ofLine line ↔
      ∃ front rest, line = front ++ rest ∧ clause ∈ startingAt front rest := by
  simp only [ofLine, List.mem_flatMap, List.mem_range]
  constructor
  · rintro ⟨n, -, hclause⟩
    exact ⟨line.take n, line.drop n, (List.take_append_drop n line).symm, hclause⟩
  · rintro ⟨front, rest, rfl, hclause⟩
    refine ⟨front.length, by rw [List.length_append]; omega, ?_⟩
    rwa [List.take_left, List.drop_left]

theorem mem_ofLine_of_suffix {line rest : List Char} (hrest : rest <:+ line)
    {clause : SequenceClause} (h : ∀ front, clause ∈ startingAt front rest) :
    clause ∈ ofLine line := by
  obtain ⟨front, rfl⟩ := hrest
  exact mem_ofLine.2 ⟨front, rest, rfl, h front⟩

theorem numbered_eq_some {w : String} {clause : List Char → SequenceClause}
    {cs mid rest value : List Char} (hw : literal? w cs = some mid)
    (hvalue : number? mid = some (value, rest)) :
    numbered w clause cs = some (clause value) := by
  simp [numbered, hw, hvalue]

/-- `CYCLE` at a place that no `NO` stands before. -/
theorem cycle_mem_startingAt {front rest : List Char} {c : Char} (hc : c ≠ 'O') :
    cycle true ∈ startingAt (front ++ [c, ' ']) ("CYCLE".toList ++ rest) := by
  have hno : "NO ".toList.isSuffixOf (front ++ [c, ' ']) = false := by
    rw [Bool.eq_false_iff, ne_eq, List.isSuffixOf_iff_suffix]
    rintro ⟨before, heq⟩
    have hparts : (before ++ ['N']) ++ ['O', ' '] = front ++ [c, ' '] := by
      rw [← heq, List.append_assoc]
      rfl
    have hend := (List.append_inj' hparts rfl).2
    exact hc (List.cons.inj hend).1.symm
  simp only [mem_startingAt, hno, literal?_append, Bool.false_eq_true, if_false, Option.map_some,
    or_true]

end SequenceClause

open SequenceClause in
/-- The clauses of a group. -/
def SequenceLine.clauses : SequenceLine → List SequenceClause
  | range least greatest => [minValue least, maxValue greatest]
  | .start value step => [.start value, increment step]
  | .cache digits on => [.cache digits, cycle on]

namespace SequenceClause
open SequenceLine (twoNumbers? cacheSize? cache? ofLine?)

theorem numbered_of_twoNumbers? {first second : String} (word : String)
    (hword : second.toList = ' ' :: word.toList) {cs a b : List Char}
    (h : twoNumbers? first second cs = some (a, b)) (clause clause' : List Char → SequenceClause) :
    numbered first clause cs = some (clause a) ∧
      ∃ rest, rest <:+ cs ∧ numbered word clause' rest = some (clause' b) := by
  simp only [twoNumbers?, Option.bind_eq_bind, Option.bind_eq_some_iff] at h
  obtain ⟨cs₁, hfirst, ⟨a, cs₂⟩, ha, cs₃, hsecond, ⟨b, cs₄⟩, hb, heq⟩ := h
  cases heq
  refine ⟨numbered_eq_some hfirst ha, word.toList ++ cs₃, ?_,
    numbered_eq_some (literal?_append word cs₃) hb⟩
  have hcs₂ : second.toList ++ cs₃ = cs₂ := literal?_eq_some.1 hsecond
  rw [hword, List.cons_append] at hcs₂
  have hrest : cs₂ <:+ cs := (number?_eq_some ha).2.trans (literal?_isSuffix hfirst)
  exact (List.suffix_cons ' ' _).trans (hcs₂ ▸ hrest)

/-- The text in front of the `CYCLE` of a cache ends in a letter or digit and a blank. -/
theorem exists_front_of_cacheSize? {cs rest : List Char} {digits : Option (List Char)}
    (h : cacheSize? cs = some (digits, rest)) :
    (∃ front c, cs = front ++ [c, ' '] ++ rest ∧ c ≠ 'O') ∧
      ∀ before, cache digits ∈ startingAt before cs := by
  rcases (Option.orElse_eq_some _ _ _).1 h with hnone | ⟨-, hsome⟩
  · obtain ⟨rest', hword, heq⟩ := Option.map_eq_some_iff.1 hnone
    cases heq
    obtain rfl := literal?_eq_some.1 hword
    refine ⟨⟨"NO CACH".toList, 'E', rfl, by decide⟩, fun before => ?_⟩
    have hcache : literal? "NO CACHE" ("NO CACHE ".toList ++ rest) = some (' ' :: rest) := rfl
    simp only [mem_startingAt, hcache, Option.map_some, true_or, or_true]
  · simp only [Option.bind_eq_bind, Option.bind_eq_some_iff] at hsome
    obtain ⟨cs₁, hword, ⟨ds, cs₂⟩, hdigits, cs₃, hspace, heq⟩ := hsome
    cases heq
    refine ⟨?_, fun before => ?_⟩
    · obtain rfl := literal?_eq_some.1 hword
      obtain rfl := literal?_eq_some.1 hspace
      obtain ⟨rfl, hall⟩ := digits?_eq_some hdigits
      rcases List.eq_nil_or_concat ds with rfl | ⟨init, d, rfl⟩
      · exact absurd rfl (ne_nil_of_digits? hdigits)
      · refine ⟨"CACHE ".toList ++ init, d, by simp, ?_⟩
        exact ne_of_test (hall d (by simp)) (by decide)
    · have hcache : cached cs = some (cache (some ds)) := by simp [cached, hword, hdigits]
      simp only [mem_startingAt, hcache, true_or, or_true]

theorem mem_ofLine_of_cache? {line cs : List Char} (hcs : cs <:+ line)
    {digits : Option (List Char)} {on : Bool} (h : cache? cs = some (digits, on)) :
    cache digits ∈ ofLine line ∧ cycle on ∈ ofLine line := by
  simp only [cache?, Option.bind_eq_bind, Option.bind_eq_some_iff] at h
  obtain ⟨⟨digits, cs₁⟩, hsize, cs₂, hcycle, heq⟩ := h
  cases heq
  obtain ⟨⟨front, c, rfl, hc⟩, hcache⟩ := exists_front_of_cacheSize? hsize
  refine ⟨mem_ofLine_of_suffix hcs hcache, ?_⟩
  obtain ⟨before, rfl⟩ := hcs
  refine mem_ofLine.2 ⟨before ++ front ++ [c, ' '], cs₁, by simp, ?_⟩
  cases hno : literal? "NO " cs₁ with
  | none =>
    rw [hno, Option.getD_none] at hcycle
    obtain rfl := literal?_eq_some.1 hcycle
    exact cycle_mem_startingAt hc
  | some cs₃ =>
    rw [hno, Option.getD_some] at hcycle
    obtain rfl := literal?_eq_some.1 hno
    obtain rfl := literal?_eq_some.1 hcycle
    have hoff : literal? "NO CYCLE" ("NO ".toList ++ ("CYCLE".toList ++ cs₂)) = some cs₂ := rfl
    simp only [mem_startingAt, hoff, Option.map_some, Option.isNone_some, true_or, or_true]

end SequenceClause

open SequenceClause in
/-- What is read from a line is written on it. -/
theorem SequenceLine.clauses_mem_ofLine {line : List Char} {group : SequenceLine}
    (h : ofLine? line = some group) :
    ∀ clause ∈ group.clauses, clause ∈ SequenceClause.ofLine line := by
  simp only [ofLine?, Option.orElse_eq_some, Option.map_eq_some_iff] at h
  rcases h with ⟨⟨a, b⟩, hp, rfl⟩ | ⟨-, ⟨⟨a, b⟩, hp, rfl⟩ | ⟨-, ⟨digits, on⟩, hp, rfl⟩⟩
  all_goals
    obtain ⟨cs, hcs, hp⟩ := search?_eq_some hp
    dsimp only [SequenceLine.clauses]
  · obtain ⟨hfirst, rest, hrest, hsecond⟩ := numbered_of_twoNumbers? "MAXVALUE " rfl hp
      minValue maxValue
    refine List.forall_mem_cons.2 ⟨?_, List.forall_mem_singleton.2 ?_⟩
    · exact mem_ofLine_of_suffix hcs fun _ => by
        simp only [mem_startingAt, hfirst, true_or]
    · exact mem_ofLine_of_suffix (hrest.trans hcs) fun _ => by
        simp only [mem_startingAt, hsecond, true_or, or_true]
  · obtain ⟨hfirst, rest, hrest, hsecond⟩ := numbered_of_twoNumbers? "INCREMENT BY " rfl hp
      SequenceClause.start increment
    refine List.forall_mem_cons.2 ⟨?_, List.forall_mem_singleton.2 ?_⟩
    · exact mem_ofLine_of_suffix hcs fun _ => by
        simp only [mem_startingAt, hfirst, true_or, or_true]
    · exact mem_ofLine_of_suffix (hrest.trans hcs) fun _ => by
        simp only [mem_startingAt, hsecond, true_or, or_true]
  · obtain ⟨hcache, hcycle⟩ := mem_ofLine_of_cache? hcs hp
    exact List.forall_mem_cons.2 ⟨hcache, List.forall_mem_singleton.2 hcycle⟩

end SchemaTransfer.Dump
