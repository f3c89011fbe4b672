import SchemaTransfer.Proofs.Names.Registry

/-!
# Runs of requests

Requests are served one after the other. `Accounts` is what holds of the names after any number of
them: the registry is the tables together with the names given out, no name of a schema was given
out twice or is that of a table, and the renames are the answers that differ from what was wanted.
Serving one more request keeps it, because the name it is answered with was free.

The tables are entered by the first request, so the invariant speaks of settled names.
-/
namespace SchemaTransfer

/-- What is asked for when an object needs a name. -/
structure Request where
  schema : String
  desired : String
  kind : String
  deriving DecidableEq, Inhabited

/-- A request with the name it was answered with. -/
structure Answer extends Request where
  name : String
  deriving DecidableEq, Inhabited

namespace Answer

/-- The schema in normalized form. -/
def place (a : Answer) : String := normalize a.schema

/-- The rename that an answer makes, unless it is what was wanted. -/
def rename? (a : Answer) : Option Rename :=
  if a.name = normalize a.desired then none
  else some ⟨a.schema, a.kind, normalize a.desired, a.name⟩

end Answer

namespace Names

def serve (n : Names) (r : Request) : Answer × Names :=
  let answer := n.resolve r.schema r.desired r.kind
  (⟨r, answer.1⟩, answer.2.1)

def serveAll (n : Names) : List Request → List Answer × Names
  | [] => ([], n)
  | r :: rest =>
    let first := n.serve r
    let others := first.2.serveAll rest
    (first.1 :: others.1, others.2)

/-- Serves several lists of requests, with the answers to each list apart. -/
def serveEach (n : Names) : List (List Request) → List (List Answer) × Names
  | [] => ([], n)
  | rs :: rest =>
    let first := n.serveAll rs
    let others := first.2.serveEach rest
    (first.1 :: others.1, others.2)

theorem serveAll_append (n : Names) (rs ts : List Request) :
    n.serveAll (rs ++ ts) =
      ((n.serveAll rs).1 ++ ((n.serveAll rs).2.serveAll ts).1,
        ((n.serveAll rs).2.serveAll ts).2) := by
  induction rs generalizing n with
  | nil => rfl
  | cons r rs ih => simp only [List.cons_append, serveAll, ih]

theorem serveEach_flatten (n : Names) (rss : List (List Request)) :
    n.serveAll rss.flatten = ((n.serveEach rss).1.flatten, (n.serveEach rss).2) := by
  induction rss generalizing n with
  | nil => rfl
  | cons rs rss ih => simp only [List.flatten_cons, serveAll_append, serveEach, ih]

@[simp] theorem serve_request (n : Names) (r : Request) : (n.serve r).1.toRequest = r := rfl

theorem serveAll_requests (n : Names) (rs : List Request) :
    (n.serveAll rs).1.map Answer.toRequest = rs := by
  induction rs generalizing n with
  | nil => rfl
  | cons r rs ih => simp only [serveAll, List.map_cons, ih, serve_request]

theorem serveEach_requests (n : Names) (rss : List (List Request)) :
    (n.serveEach rss).1.map (List.map Answer.toRequest) = rss := by
  induction rss generalizing n with
  | nil => rfl
  | cons rs rss ih => simp only [serveEach, List.map_cons, ih, serveAll_requests]

theorem serve_settle (n : Names) (r : Request) : n.settle.serve r = n.serve r := by
  simp only [serve, resolve_settle]

@[simp] theorem serve_pending (n : Names) (r : Request) : (n.serve r).2.pending = [] := by
  simp only [serve, resolve_pending]

theorem serve_free (n : Names) (r : Request) :
    n.settle.kind? (n.serve r).1.place (n.serve r).1.name = none := by
  simp only [serve, Answer.place, resolve_free]

theorem kind?_serve_self (n : Names) (r : Request) :
    (n.serve r).2.kind? (n.serve r).1.place (n.serve r).1.name = some r.kind := by
  simp only [serve, Answer.place, kind?_resolve_self]

theorem kind?_serve_of_ne (n : Names) (r : Request) {s x : String}
    (h : ¬ (s = (n.serve r).1.place ∧ x = (n.serve r).1.name)) :
    (n.serve r).2.kind? s x = n.settle.kind? s x := by
  simp only [serve, Answer.place] at h ⊢
  exact kind?_resolve_of_ne n _ _ _ h

theorem serve_renames (n : Names) (r : Request) :
    (n.serve r).2.renames = n.renames ++ (n.serve r).1.rename?.toList := by
  have h := resolve_renames n r.schema r.desired r.kind
  by_cases hname : (n.resolve r.schema r.desired r.kind).1 = normalize r.desired
  · rw [if_pos hname] at h
    simp [serve, Answer.rename?, h, hname]
  · rw [if_neg hname] at h
    simp [serve, Answer.rename?, h, hname]

theorem serveAll_pending {n : Names} (h : n.pending = []) (rs : List Request) :
    (n.serveAll rs).2.pending = [] := by
  induction rs generalizing n with
  | nil => exact h
  | cons r rs ih => exact ih (n.serve_pending r)

/-- The first request enters the tables. -/
theorem serveAll_pending_of_ne_nil (n : Names) {rs : List Request} (h : rs ≠ []) :
    (n.serveAll rs).2.pending = [] := by
  cases rs with
  | nil => exact absurd rfl h
  | cons r rs => exact serveAll_pending (n.serve_pending r) rs

theorem kind?_serve_of_some {n : Names} {s x k : String} (r : Request)
    (h : n.settle.kind? s x = some k) : (n.serve r).2.kind? s x = some k := by
  refine (n.kind?_serve_of_ne r fun ⟨hs, hx⟩ => ?_).trans h
  rw [hs, hx, serve_free] at h
  cases h

/-- Entries stay as they are, from any point of a run on. -/
theorem kind?_serveAll {n : Names} {s x k : String} (h : n.settle.kind? s x = some k)
    (rs : List Request) : (n.serveAll rs).2.settle.kind? s x = some k := by
  induction rs generalizing n with
  | nil => exact h
  | cons r rs ih =>
    have hnext := kind?_serve_of_some r h
    rw [← settle_eq_self (n.serve_pending r)] at hnext
    simp only [serveAll]
    exact ih hnext

/-- It does not matter whether the tables were entered before. -/
theorem serveAll_settle (n : Names) (rs : List Request) :
    (n.settle.serveAll rs).1 = (n.serveAll rs).1 ∧
      (n.settle.serveAll rs).2 = (n.serveAll rs).2.settle := by
  cases rs with
  | nil => exact ⟨rfl, rfl⟩
  | cons r rs =>
    have hsettled := settle_eq_self (serveAll_pending (n.serve_pending r) rs)
    simp only [serveAll, serve_settle, hsettled, and_self]

/-- The names account for the tables of a catalog and the answers given so far. -/
structure Accounts (tables : List (String × String)) (answers : List Answer) (n : Names) :
    Prop where
  settled : n.pending = []
  registry : ∀ s x k, n.kind? s x = some k ↔
    (IsTable tables s x ∧ k = "table") ∨ ∃ a ∈ answers, a.place = s ∧ a.name = x ∧ a.kind = k
  distinct : answers.Pairwise fun a b => a.place = b.place → a.name ≠ b.name
  apart : ∀ a ∈ answers, ¬ IsTable tables a.place a.name
  renames : n.renames = answers.filterMap Answer.rename?

theorem accounts_start (tables : List (String × String)) :
    Accounts tables [] (ofTables tables).settle where
  settled := settle_pending _
  registry s x k := by simp [kind?_settle_ofTables]
  distinct := .nil
  apart a ha := by cases ha
  renames := by simp [ofTables]

/-- The name that a request is answered with is that of no table and of no earlier answer. -/
theorem Accounts.fresh {tables : List (String × String)} {answers : List Answer} {n : Names}
    (h : Accounts tables answers n) (r : Request) :
    ¬ IsTable tables (n.serve r).1.place (n.serve r).1.name ∧
      ∀ a ∈ answers, a.place = (n.serve r).1.place → a.name ≠ (n.serve r).1.name := by
  have hfree := n.serve_free r
  rw [settle_eq_self h.settled] at hfree
  refine ⟨fun htable => ?_, fun a ha hplace hname => ?_⟩
  · have := (h.registry _ _ "table").2 (.inl ⟨htable, rfl⟩)
    rw [hfree] at this
    cases this
  · have := (h.registry _ _ a.kind).2 (.inr ⟨a, ha, hplace, hname, rfl⟩)
    rw [hfree] at this
    cases this

theorem Accounts.serve {tables : List (String × String)} {answers : List Answer} {n : Names}
    (h : Accounts tables answers n) (r : Request) :
    Accounts tables (answers ++ [(n.serve r).1]) (n.serve r).2 := by
  obtain ⟨hapart, hdistinct⟩ := h.fresh r
  have hself := n.kind?_serve_self r
  have hne := @kind?_serve_of_ne n r
  have hrequest := n.serve_request r
  have hrenames := n.serve_renames r
  rw [settle_eq_self h.settled] at hne
  generalize (n.serve r).1 = a at hapart hdistinct hself hne hrequest hrenames ⊢
  refine ⟨n.serve_pending r, fun s x k => ?_, ?_, ?_, ?_⟩
  · by_cases hhere : s = a.place ∧ x = a.name
    · obtain ⟨rfl, rfl⟩ := hhere
      have hnot : ¬ ∃ b ∈ answers, b.place = a.place ∧ b.name = a.name ∧ b.kind = k :=
        fun ⟨b, hb, hplace, hname, _⟩ => hdistinct b hb hplace hname
      rw [hself, ← hrequest]
      simp [hapart, or_and_right, exists_or, hnot]
    · have hnew : ¬ (a.place = s ∧ a.name = x ∧ a.kind = k) :=
        fun ⟨hs, hx, _⟩ => hhere ⟨hs.symm, hx.symm⟩
      rw [hne hhere, h.registry]
      simp [or_and_right, exists_or, hnew]
  · refine List.pairwise_append.2 ⟨h.distinct, List.pairwise_singleton _ _, ?_⟩
    intro b hb c hc
    rw [List.mem_singleton.1 hc]
    exact hdistinct b hb
  · intro b hb
    rcases List.mem_append.1 hb with hb | hb
    · exact h.apart b hb
    · rw [List.mem_singleton.1 hb]
      exact hapart
  · rw [hrenames, h.renames, List.filterMap_append]
    cases hrename : a.rename? <;> simp [hrename]

theorem Accounts.serveAll {tables : List (String × String)} {answers : List Answer} {n : Names}
    (h : Accounts tables answers n) (rs : List Request) :
    Accounts tables (answers ++ (n.serveAll rs).1) (n.serveAll rs).2 := by
  induction rs generalizing answers n with
  | nil => simpa [Names.serveAll] using h
  | cons r rs ih =>
    have := ih (h.serve r)
    simpa [Names.serveAll] using this

/-- The invariant of every run, once the tables are entered. -/
theorem accounts_serveAll (tables : List (String × String)) (rs : List Request) :
    Accounts tables ((ofTables tables).serveAll rs).1
      ((ofTables tables).serveAll rs).2.settle := by
  obtain ⟨hanswers, hnames⟩ := serveAll_settle (ofTables tables) rs
  rw [← hanswers, ← hnames]
  exact (accounts_start tables).serveAll rs

/-- No request of a run overwrites what was entered before it. -/
theorem kind?_serveAll_append {tables : List (String × String)} {past : List Request}
    {s x k : String} (h : ((ofTables tables).serveAll past).2.kind? s x = some k)
    (future : List Request) :
    ((ofTables tables).serveAll (past ++ future)).2.kind? s x = some k := by
  by_cases hpast : past = []
  · have hnone : (ofTables tables).kind? s x = none := rfl
    rw [hpast, serveAll, hnone] at h
    cases h
  · rw [← settle_eq_self (serveAll_pending_of_ne_nil _ hpast)] at h
    have hlast := kind?_serveAll h future
    rw [← settle_eq_self (serveAll_pending_of_ne_nil _ (List.append_ne_nil_of_left_ne_nil hpast _)),
      serveAll_append]
    exact hlast

end Names

end SchemaTransfer
