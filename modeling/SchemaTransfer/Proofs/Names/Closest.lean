import SchemaTransfer.Proofs.Names.Registry

/-!
# The closest free name

A request is answered with the name that is wanted, or else with that name and the kind behind it,
or else with that name and the smallest number that makes it free. The search for the number has no
bound of its own: a derivation of `Search` is one that ends, and the name it ends with is the one
`IsClosest` describes. What the request leaves of the names is `Answered`.
-/
namespace SchemaTransfer.Names

section Search

variable {taken : String → Prop} {wanted kind candidate name : String} {n : ℕ}

/-- As long as the candidate is taken, the next one is the wanted name with the next number. -/
inductive Search (taken : String → Prop) (wanted : String) : String → ℕ → String → Prop
  | free {candidate : String} {n : ℕ} (h : ¬ taken candidate) :
      Search taken wanted candidate n candidate
  | next {candidate name : String} {n : ℕ} (h : taken candidate)
      (rest : Search taken wanted (wanted ++ n.repr) (n + 1) name) :
      Search taken wanted candidate n name

theorem Search.unique {other : String} (h : Search taken wanted candidate n name)
    (hother : Search taken wanted candidate n other) : name = other := by
  induction h with
  | free hfree =>
    cases hother with
    | free => rfl
    | next htaken => exact absurd htaken hfree
  | next htaken _ ih =>
    cases hother with
    | free hfree => exact absurd htaken hfree
    | next _ hrest => exact ih hrest

/-- From a candidate that is taken the search ends at the first number that is free. -/
theorem Search.of_least {k : ℕ} (hcandidate : taken candidate) (hn : n ≤ k)
    (hfree : ¬ taken (wanted ++ k.repr))
    (hleast : ∀ j, n ≤ j → j < k → taken (wanted ++ j.repr)) :
    Search taken wanted candidate n (wanted ++ k.repr) := by
  obtain ⟨d, rfl⟩ := Nat.exists_eq_add_of_le hn
  -- The induction is on how many numbers are left to try, for every candidate.
  induction d generalizing n candidate with
  | zero => exact .next hcandidate (.free hfree)
  | succ d ih =>
    have hd : n + (d + 1) = n + 1 + d := by omega
    rw [hd] at hfree hleast ⊢
    apply Search.next hcandidate
    apply ih (hleast n (by omega) (by omega)) (by omega) hfree
    intro j hj hjk
    exact hleast j (by omega) hjk

/-- The free name closest to the one that is wanted. -/
inductive IsClosest (taken : String → Prop) (wanted kind : String) : String → Prop
  | wanted (h : ¬ taken wanted) : IsClosest taken wanted kind wanted
  | withKind (hwanted : taken wanted) (h : ¬ taken (wanted ++ "_" ++ lowerCase kind)) :
      IsClosest taken wanted kind (wanted ++ "_" ++ lowerCase kind)
  | numbered {k : ℕ} (hwanted : taken wanted) (hkind : taken (wanted ++ "_" ++ lowerCase kind))
      (hk : 1 ≤ k) (h : ¬ taken (wanted ++ k.repr))
      (hleast : ∀ j, 1 ≤ j → j < k → taken (wanted ++ j.repr)) :
      IsClosest taken wanted kind (wanted ++ k.repr)

namespace IsClosest

theorem free (h : IsClosest taken wanted kind name) : ¬ taken name := by
  cases h <;> assumption

theorem congr {other : String → Prop} (h : ∀ x, taken x ↔ other x)
    (hname : IsClosest taken wanted kind name) : IsClosest other wanted kind name := by
  rwa [← funext fun x => propext (h x)]

/-- Where the wanted name is taken, the search that starts with the kind behind it ends. -/
theorem search (h : IsClosest taken wanted kind name) (hwanted : taken wanted) :
    Search taken wanted (wanted ++ "_" ++ lowerCase kind) 1 name := by
  cases h with
  | wanted hfree => exact absurd hwanted hfree
  | withKind _ hfree => exact .free hfree
  | numbered _ hkind hk hfree hleast => exact .of_least hkind hk hfree hleast

theorem unique {other : String} (h : IsClosest taken wanted kind name)
    (hother : IsClosest taken wanted kind other) : name = other := by
  by_cases hwanted : taken wanted
  · exact (h.search hwanted).unique (hother.search hwanted)
  · cases h <;> cases hother <;> first | rfl | contradiction

end IsClosest

end Search

theorem closest_isClosest (taken : Keyed String) (wanted kind : String) :
    IsClosest (taken.contains · = true) wanted kind (closest taken wanted kind) := by
  fun_cases closest taken wanted kind with
  | case1 hwanted => exact .wanted (by simpa using hwanted)
  | case2 withKind hwanted hkind => exact .withKind (by simpa using hwanted) (by simpa using hkind)
  | case3 withKind hwanted hkind =>
    obtain ⟨k, -, hname, hfree, hleast⟩ := numbered_spec (exists_numbered_free taken wanted)
    rw [hname]
    apply IsClosest.numbered (by simpa using hwanted) (by simpa using hkind) (by omega)
    · simp [hfree]
    · intro j hj hjk
      -- The numbers are tried from one on, and counted from zero.
      obtain ⟨i, rfl⟩ : ∃ i, j = i + 1 := ⟨j - 1, by omega⟩
      exact hleast i (by omega)

/-- Whether a name is taken in a schema, by an entry or by a table that is not entered yet. -/
def Takes (n : Names) (schema name : String) : Prop :=
  n.kind? schema name ≠ none ∨ IsTable n.pending schema name

theorem kind?_settle (n : Names) (s x k : String) :
    n.settle.kind? s x = some k ↔
      (IsTable n.pending s x ∧ k = "table") ∨ (¬ IsTable n.pending s x ∧ n.kind? s x = some k) :=
  kind?_foldl_enter _ _ _ _ _

theorem kind?_settle_of_not_isTable {n : Names} {s x : String} (h : ¬ IsTable n.pending s x) :
    n.settle.kind? s x = n.kind? s x := by
  ext k
  simp [kind?_settle, h]

theorem takes_iff (n : Names) (s x : String) : n.Takes s x ↔ n.settle.kind? s x ≠ none := by
  by_cases htable : IsTable n.pending s x
  · have hkind : n.settle.kind? s x = some "table" := by simp [kind?_settle, htable]
    simp [Takes, htable, hkind]
  · simp [Takes, htable, kind?_settle_of_not_isTable]

theorem contains_taken_iff (n : Names) (schema name : String) :
    (n.settle.taken schema).contains name = true ↔ n.Takes (normalize schema) name := by
  rw [takes_iff, ← taken_get?, Keyed.contains, Option.isSome_iff_ne_none]

theorem contains_enter (n : Names) (schema name kind s : String) :
    (n.enter schema name kind).registry.contains s = true ↔
      s = normalize schema ∨ n.registry.contains s = true := by
  by_cases hs : s = normalize schema
  · simp [enter, Keyed.contains, hs]
  · simp [enter, Keyed.contains, Keyed.get?_insert_of_ne _ _ (Ne.symm hs), hs]

theorem contains_foldl_enter (tables : List (String × String)) (n : Names) (s : String) :
    (tables.foldl (fun m t => m.enter t.1 (normalize t.2) "table") n).registry.contains s = true ↔
      (∃ t ∈ tables, normalize t.1 = s) ∨ n.registry.contains s = true := by
  induction tables generalizing n with
  | nil => simp
  | cons t tables ih =>
    rw [List.foldl_cons, ih, contains_enter]
    simp only [List.mem_cons, exists_eq_or_imp, @eq_comm _ s, or_assoc, or_left_comm]

theorem contains_settle (n : Names) (s : String) :
    n.settle.registry.contains s = true ↔
      (∃ t ∈ n.pending, normalize t.1 = s) ∨ n.registry.contains s = true :=
  contains_foldl_enter _ _ _

/-- The names `m` and the notices that a request for a name leaves, which was answered with
`name`. -/
structure Answered (n : Names) (schema desired kind name : String) (m : Names)
    (notices : List Notice) : Prop where
  closest : IsClosest (n.Takes (normalize schema)) (normalize desired) kind name
  /-- The search for another name than the wanted one ends. -/
  search : n.Takes (normalize schema) (normalize desired) →
    Search (n.Takes (normalize schema)) (normalize desired)
      (normalize desired ++ "_" ++ lowerCase kind) 1 name
  entry : m.kind? (normalize schema) name = some kind
  tables : ∀ s x, IsTable n.pending s x → m.kind? s x = some "table"
  others : ∀ s x, ¬ IsTable n.pending s x → ¬ (s = normalize schema ∧ x = name) →
    m.kind? s x = n.kind? s x
  schemas : ∀ s, m.registry.contains s = true ↔
    s = normalize schema ∨ (∃ t ∈ n.pending, normalize t.1 = s) ∨ n.registry.contains s = true
  settled : m.pending = []
  renames : m.renames = n.renames ++
    if name = normalize desired then [] else [⟨schema, kind, normalize desired, name⟩]
  notices : notices =
    if name = normalize desired then [] else [.renamed schema kind (normalize desired) name]

theorem resolve_isClosest (n : Names) (schema desired kind : String) :
    IsClosest (n.Takes (normalize schema)) (normalize desired) kind
      (n.resolve schema desired kind).1 := by
  rw [resolve_name]
  exact (closest_isClosest _ _ _).congr (n.contains_taken_iff schema)

theorem resolve_notices (n : Names) (schema desired kind : String) :
    (n.resolve schema desired kind).2.2 =
      if (n.resolve schema desired kind).1 = normalize desired then []
      else [.renamed schema kind (normalize desired) (n.resolve schema desired kind).1] := by
  unfold resolve
  dsimp only
  split_ifs <;> simp_all

/-- A request is answered with the closest free name, and enters that name and no other. -/
theorem resolve_answered (n : Names) (schema desired kind : String) :
    Answered n schema desired kind (n.resolve schema desired kind).1
      (n.resolve schema desired kind).2.1 (n.resolve schema desired kind).2.2 where
  closest := n.resolve_isClosest schema desired kind
  search := (n.resolve_isClosest schema desired kind).search
  entry := n.kind?_resolve_self schema desired kind
  tables s x htable := by
    have hsettle : n.settle.kind? s x = some "table" := by simp [kind?_settle, htable]
    rw [kind?_resolve_of_ne, hsettle]
    -- The name it is answered with was free, and that of the table was not.
    intro hsame
    rw [hsame.1, hsame.2, resolve_free] at hsettle
    cases hsettle
  others s x htable hne := by
    rw [kind?_resolve_of_ne n schema desired kind hne, kind?_settle_of_not_isTable htable]
  schemas s := by rw [resolve_registry, contains_enter, contains_settle]
  settled := n.resolve_pending schema desired kind
  renames := by
    rw [resolve_renames]
    split <;> simp
  notices := n.resolve_notices schema desired kind

example : ((ofTables [("S", "T"), ("S", "T_INDEX")]).resolve "S" "T" "INDEX").1 = "t1" := by
  decide +kernel

end SchemaTransfer.Names
