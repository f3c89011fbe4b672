import SchemaTransfer.Proofs.Names.Fresh

/-!
# The registry of names

`Names.kind?` reads the registry, and what entering a name, entering the tables and answering one
request do to it is stated by that reading. A request is answered with a name that was free, and
changes the registry at that name only.
-/
namespace SchemaTransfer.Names

/-- The kind of what a name stands for in a schema; both are in normalized form. -/
def kind? (n : Names) (schema name : String) : Option String :=
  (n.registry.get? schema).bind (·.get? name)

/-- Whether a name is that of a table of the schema; both are in normalized form. -/
def IsTable (tables : List (String × String)) (schema name : String) : Prop :=
  ∃ t ∈ tables, normalize t.1 = schema ∧ normalize t.2 = name

theorem isTable_cons (t : String × String) (tables : List (String × String)) (s x : String) :
    IsTable (t :: tables) s x ↔
      (s = normalize t.1 ∧ x = normalize t.2) ∨ IsTable tables s x := by
  simp only [IsTable, List.mem_cons, exists_eq_or_imp, @eq_comm _ s, @eq_comm _ x]

theorem taken_get? (n : Names) (schema name : String) :
    (n.taken schema).get? name = n.kind? (normalize schema) name := by
  unfold taken kind?
  cases n.registry.get? (normalize schema) <;> rfl

@[simp] theorem enter_pending (n : Names) (schema name kind : String) :
    (n.enter schema name kind).pending = n.pending := rfl

@[simp] theorem enter_renames (n : Names) (schema name kind : String) :
    (n.enter schema name kind).renames = n.renames := rfl

theorem kind?_congr {m n : Names} (h : m.registry = n.registry) (s x : String) :
    m.kind? s x = n.kind? s x := by
  unfold kind?
  rw [h]

theorem kind?_enter (n : Names) (schema name kind s x : String) :
    (n.enter schema name kind).kind? s x =
      if s = normalize schema ∧ x = name then some kind else n.kind? s x := by
  by_cases hs : s = normalize schema
  · subst hs
    have hget : (n.enter schema name kind).kind? (normalize schema) x =
        ((n.taken schema).insert name kind).get? x := by
      simp [kind?, enter]
    rw [hget]
    by_cases hx : x = name
    · simp [hx]
    · rw [Keyed.get?_insert_of_ne _ _ (Ne.symm hx), taken_get?]
      simp [hx]
  · have hget : (n.enter schema name kind).kind? s x = n.kind? s x := by
      unfold kind? enter
      rw [Keyed.get?_insert_of_ne _ _ (Ne.symm hs)]
    simp [hget, hs]

theorem settle_eq_self {n : Names} (h : n.pending = []) : n.settle = n := by
  obtain ⟨registry, renames, pending⟩ := n
  cases h
  rfl

theorem foldl_enter_pending (tables : List (String × String)) (n : Names) :
    (tables.foldl (fun m t => m.enter t.1 (normalize t.2) "table") n).pending = n.pending := by
  induction tables generalizing n with
  | nil => rfl
  | cons t tables ih => rw [List.foldl_cons, ih, enter_pending]

theorem foldl_enter_renames (tables : List (String × String)) (n : Names) :
    (tables.foldl (fun m t => m.enter t.1 (normalize t.2) "table") n).renames = n.renames := by
  induction tables generalizing n with
  | nil => rfl
  | cons t tables ih => rw [List.foldl_cons, ih, enter_renames]

theorem kind?_foldl_enter (tables : List (String × String)) (n : Names) (s x k : String) :
    (tables.foldl (fun m t => m.enter t.1 (normalize t.2) "table") n).kind? s x = some k ↔
      (IsTable tables s x ∧ k = "table") ∨ (¬ IsTable tables s x ∧ n.kind? s x = some k) := by
  induction tables generalizing n with
  | nil => simp [IsTable]
  | cons t tables ih =>
    rw [List.foldl_cons, ih, kind?_enter, isTable_cons]
    by_cases hhere : s = normalize t.1 ∧ x = normalize t.2
    · rw [if_pos hhere]
      by_cases hk : k = "table"
      · simp [hhere, hk, Classical.em]
      · simp [hhere, hk, Ne.symm hk]
    · rw [if_neg hhere]
      simp [hhere]

@[simp] theorem settle_pending (n : Names) : n.settle.pending = [] := foldl_enter_pending _ _

@[simp] theorem settle_renames (n : Names) : n.settle.renames = n.renames :=
  foldl_enter_renames _ _

theorem settle_settle (n : Names) : n.settle.settle = n.settle := settle_eq_self n.settle_pending

theorem kind?_settle_ofTables (tables : List (String × String)) (s x k : String) :
    (ofTables tables).settle.kind? s x = some k ↔ IsTable tables s x ∧ k = "table" := by
  have hnone : ({ ofTables tables with pending := [] } : Names).kind? s x = none := rfl
  unfold settle
  rw [kind?_foldl_enter, hnone]
  simp [ofTables]

theorem resolve_settle (n : Names) (schema desired kind : String) :
    n.settle.resolve schema desired kind = n.resolve schema desired kind := by
  unfold resolve
  rw [settle_settle]

theorem resolve_name (n : Names) (schema desired kind : String) :
    (n.resolve schema desired kind).1 =
      closest (n.settle.taken schema) (normalize desired) kind := by
  unfold resolve
  dsimp only
  split <;> rfl

theorem resolve_free (n : Names) (schema desired kind : String) :
    n.settle.kind? (normalize schema) (n.resolve schema desired kind).1 = none := by
  rw [resolve_name, ← taken_get?]
  exact closest_free _ _ _

theorem resolve_registry (n : Names) (schema desired kind : String) :
    (n.resolve schema desired kind).2.1.registry =
      (n.settle.enter schema (n.resolve schema desired kind).1 kind).registry := by
  unfold resolve
  dsimp only
  split <;> rfl

theorem kind?_resolve_self (n : Names) (schema desired kind : String) :
    (n.resolve schema desired kind).2.1.kind? (normalize schema)
      (n.resolve schema desired kind).1 = some kind := by
  rw [kind?_congr (n.resolve_registry schema desired kind), kind?_enter, if_pos ⟨rfl, rfl⟩]

theorem kind?_resolve_of_ne (n : Names) (schema desired kind : String) {s x : String}
    (h : ¬ (s = normalize schema ∧ x = (n.resolve schema desired kind).1)) :
    (n.resolve schema desired kind).2.1.kind? s x = n.settle.kind? s x := by
  rw [kind?_congr (n.resolve_registry schema desired kind), kind?_enter, if_neg h]

@[simp] theorem resolve_pending (n : Names) (schema desired kind : String) :
    (n.resolve schema desired kind).2.1.pending = [] := by
  unfold resolve
  dsimp only
  split <;> simp

theorem resolve_renames (n : Names) (schema desired kind : String) :
    (n.resolve schema desired kind).2.1.renames =
      if (n.resolve schema desired kind).1 = normalize desired then n.renames
      else n.renames ++
        [⟨schema, kind, normalize desired, (n.resolve schema desired kind).1⟩] := by
  unfold resolve
  dsimp only
  split_ifs <;> simp_all

end SchemaTransfer.Names
