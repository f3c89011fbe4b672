import Mathlib.Algebra.Group.Pi.Basic
import SchemaTransfer.Proofs.Names.Emission

/-!
# Books kept while scripts are emitted

An emission counts the statements that it puts into the scripts, and the checks that found a
problem. `Books` says that an action counts exactly what it writes and takes its verdicts one by
one. It goes through the loops of an emission piece by piece; what is counted ahead of the statement
is carried along as pending. Names and notices count for nothing.
-/
namespace SchemaTransfer

/-- The kinds of statements that are counted, and the remarks on problems. -/
inductive Counter
  | tablespaces
  | roles
  | schemas
  | sequences
  | domains
  | tables
  | primaryKeys
  | uniqueConstraints
  | indexes
  | foreignKeys
  | identities
  | checkConstraints
  | views
  | functions
  | triggers
  | probeFailures
  deriving DecidableEq

namespace Tally

def get (t : Tally) : Counter → ℕ
  | .tablespaces => t.tablespaces
  | .roles => t.roles
  | .schemas => t.schemas
  | .sequences => t.sequences
  | .domains => t.domains
  | .tables => t.tables
  | .primaryKeys => t.primaryKeys
  | .uniqueConstraints => t.uniqueConstraints
  | .indexes => t.indexes
  | .foreignKeys => t.foreignKeys
  | .identities => t.identities
  | .checkConstraints => t.checkConstraints
  | .views => t.views
  | .functions => t.functions
  | .triggers => t.triggers
  | .probeFailures => t.probeFailures

/-- One more of a kind. -/
def bump (k : Counter) (t : Tally) : Tally :=
  match k with
  | .tablespaces => { t with tablespaces := t.tablespaces + 1 }
  | .roles => { t with roles := t.roles + 1 }
  | .schemas => { t with schemas := t.schemas + 1 }
  | .sequences => { t with sequences := t.sequences + 1 }
  | .domains => { t with domains := t.domains + 1 }
  | .tables => { t with tables := t.tables + 1 }
  | .primaryKeys => { t with primaryKeys := t.primaryKeys + 1 }
  | .uniqueConstraints => { t with uniqueConstraints := t.uniqueConstraints + 1 }
  | .indexes => { t with indexes := t.indexes + 1 }
  | .foreignKeys => { t with foreignKeys := t.foreignKeys + 1 }
  | .identities => { t with identities := t.identities + 1 }
  | .checkConstraints => { t with checkConstraints := t.checkConstraints + 1 }
  | .views => { t with views := t.views + 1 }
  | .functions => { t with functions := t.functions + 1 }
  | .triggers => { t with triggers := t.triggers + 1 }
  | .probeFailures => { t with probeFailures := t.probeFailures + 1 }

theorem get_bump (k : Counter) (t : Tally) : (t.bump k).get = t.get + Pi.single k 1 := by
  funext l
  cases k <;> cases l <;> rfl

end Tally

namespace Item

/-- The counter that an item belongs to. The sequence of an identity counts as the identity. -/
def counter? : Item → Option Counter
  | createTablespace .. => some .tablespaces
  | createRole .. => some .roles
  | createSchema .. => some .schemas
  | createSequence _ _ _ none => some .sequences
  | createSequence _ _ _ (some _) => some .identities
  | createDomain .. => some .domains
  | createTable .. => some .tables
  | addPrimaryKey .. => some .primaryKeys
  | addUnique .. => some .uniqueConstraints
  | createIndex .. => some .indexes
  | addForeignKey .. => some .foreignKeys
  | addCheck .. => some .checkConstraints
  | createView .. => some .views
  | createFunction .. => some .functions
  | createTriggerFunction .. => some .triggers
  | unparsable .. => some .probeFailures
  | _ => none

/-- One for the counter that an item belongs to. -/
def counts (item : Item) : Counter → ℕ :=
  match item.counter? with
  | some k => Pi.single k 1
  | none => 0

theorem counts_of_counter? {item : Item} {k : Counter} (h : item.counter? = some k) :
    item.counts = Pi.single k 1 := by
  rw [counts, h]

/-- A statement whose text is checked. -/
def isProbed : Item → Bool
  | addCheck .. => true
  | createView .. => true
  | _ => false

end Item

namespace Script

/-- How many items belong to each counter. -/
def counted (s : Script) (k : Counter) : ℕ := s.countP fun item => item.counter? = some k

theorem counted_nil : counted [] = 0 := rfl

theorem counted_cons (item : Item) (s : Script) :
    counted (item :: s) = item.counts + s.counted := by
  funext k
  rw [counted, List.countP_cons, Nat.add_comm, Pi.add_apply, counted, Item.counts]
  congr 1
  cases item.counter? with
  | none => rfl
  | some l => simp [Pi.single_apply, eq_comm]

theorem counted_append (s t : Script) : counted (s ++ t) = s.counted + t.counted := by
  funext k
  exact List.countP_append

/-- Items that belong to no counter. -/
theorem counted_eq_zero {s : Script} (h : ∀ item ∈ s, item.counter? = none) : s.counted = 0 := by
  funext k
  refine List.countP_eq_zero.2 fun item hitem => ?_
  simp [h item hitem]

/-- Each remark on a problem stands right before a statement that was checked. -/
inductive Warned : Script → Prop
  | nil : Warned []
  | cons {item : Item} {s : Script} (h : item.counter? ≠ some .probeFailures) (hs : Warned s) :
      Warned (item :: s)
  | remark (problem : String) {item : Item} {s : Script} (h : item.isProbed = true)
      (hs : Warned s) : Warned (.unparsable problem :: item :: s)

theorem Warned.append {s t : Script} (hs : s.Warned) (ht : t.Warned) : Warned (s ++ t) := by
  induction hs with
  | nil => exact ht
  | cons h _ ih => exact .cons h ih
  | remark problem h _ ih => exact .remark problem h ih

theorem warned_of_counted {s : Script} (h : s.counted .probeFailures = 0) : s.Warned := by
  have hnone : ∀ item ∈ s, item.counter? ≠ some .probeFailures := fun item hitem hcounter =>
    List.countP_eq_zero.1 h item hitem (decide_eq_true hcounter)
  induction s with
  | nil => exact .nil
  | cons item s ih =>
    obtain ⟨hitem, hrest⟩ := List.forall_mem_cons.1 hnone
    rw [counted_cons] at h
    exact .cons hitem (ih (Nat.eq_zero_of_add_eq_zero_left h) hrest)

end Script

namespace Emit

variable {α : Type}

/-- How many checks found a problem. -/
def rejections (verdicts : List Verdict) : ℕ := verdicts.countP (·.problem?.isSome)

/-- Between two states items were written: as many of each kind as there are objects, and for each
of the checks that found a problem a remark. All of them were counted, but for what had been counted
before. -/
structure Booked (pending objects : Counter → ℕ) (checks : ℕ) (e : Emission) (items : Script)
    (e' : Emission) : Prop where
  tally : e'.tally.get + pending = e.tally.get + items.counted
  objects : ∀ k, k ≠ .probeFailures → items.counted k = objects k
  probed : e'.probed.length = e.probed.length + checks
  verdicts : e'.verdicts = e.verdicts.drop checks
  failures : items.counted .probeFailures = rejections (e.verdicts.take checks)
  warned : items.Warned

variable {pending objects objects' : Counter → ℕ} {checks checks' : ℕ} {e e' e'' : Emission}
  {items more : Script}

/-- Nothing but items. -/
theorem booked_of_counted (e : Emission) (h : items.counted = pending)
    (hfailures : pending .probeFailures = 0) : Booked pending pending 0 e items e where
  tally := by rw [h]
  objects k _ := by rw [h]
  probed := rfl
  verdicts := rfl
  failures := by
    rw [h, hfailures]
    rfl
  warned := Script.warned_of_counted (by rw [h, hfailures])

/-- Items that belong to no counter. -/
theorem booked_uncounted (e : Emission) (h : ∀ item ∈ items, item.counter? = none) :
    Booked 0 0 0 e items e := booked_of_counted e (Script.counted_eq_zero h) rfl

theorem Booked.of_eq (h : Booked pending objects checks e items e') (hobjects : objects = objects')
    (hchecks : checks = checks') : Booked pending objects' checks' e items e' := by
  rwa [← hobjects, ← hchecks]

theorem Booked.append (h : Booked pending objects checks e items e')
    (h' : Booked 0 objects' checks' e' more e'') :
    Booked pending (objects + objects') (checks + checks') e (items ++ more) e'' where
  tally := by
    have hmore : e''.tally.get = e'.tally.get + more.counted := by simpa using h'.tally
    rw [Script.counted_append, hmore, add_right_comm, h.tally, add_assoc]
  objects k hk := by
    rw [Script.counted_append, Pi.add_apply, h.objects k hk, h'.objects k hk, Pi.add_apply]
  probed := by rw [h'.probed, h.probed, Nat.add_assoc]
  verdicts := by rw [h'.verdicts, h.verdicts, List.drop_drop]
  failures := by
    have hmore := h'.failures
    rw [h.verdicts] at hmore
    rw [Script.counted_append, Pi.add_apply, h.failures, hmore, rejections, rejections, rejections,
      List.take_add, List.countP_append]
  warned := h.warned.append h'.warned

/-- What an action writes and counts, whatever state it starts in. -/
def Books (pending objects : Counter → ℕ) (checks : ℕ) (m : Emit Script) : Prop :=
  ∀ e, Booked pending objects checks e (m.run e).1 (m.run e).2

theorem books_pure (h : items.counted = pending) (hfailures : pending .probeFailures = 0) :
    Books pending pending 0 (pure items) := fun e => booked_of_counted e h hfailures

theorem books_count (k : Counter) {m : Emit Script}
    (h : Books (pending + Pi.single k 1) objects checks m) :
    Books pending objects checks (count (Tally.bump k) >>= fun _ => m) := by
  intro e
  have hbooked := h { e with tally := e.tally.bump k }
  refine { hbooked with tally := add_right_cancel (b := Pi.single k 1) ?_ }
  have htally := hbooked.tally
  rw [Tally.get_bump, ← add_assoc, add_right_comm e.tally.get] at htally
  exact htally

/-- Items of which one is counted. -/
theorem books_counted {k : Counter} (hk : k ≠ .probeFailures)
    (h : items.counted = Pi.single k 1) :
    Books 0 (Pi.single k 1) 0 (count (Tally.bump k) >>= fun _ => pure items) := by
  apply books_count
  rw [zero_add]
  exact books_pure h (Pi.single_eq_of_ne hk.symm 1)

/-- A statement that is counted, and what comes with it. -/
theorem books_statement {k : Counter} {item : Item} {rest : Script} (hk : k ≠ .probeFailures)
    (hitem : item.counter? = some k) (hrest : ∀ other ∈ rest, other.counter? = none) :
    Books 0 (Pi.single k 1) 0 (count (Tally.bump k) >>= fun _ => pure (item :: rest)) := by
  refine books_counted hk ?_
  rw [Script.counted_cons, Item.counts_of_counter? hitem, Script.counted_eq_zero hrest, add_zero]

/-- Nothing is counted and nothing is checked. -/
def Quiet (m : Emit α) : Prop := ∀ e,
  (m.run e).2.tally = e.tally ∧ (m.run e).2.verdicts = e.verdicts ∧ (m.run e).2.probed = e.probed

theorem quiet_pure (a : α) : Quiet (pure a : Emit α) := fun _ => ⟨rfl, rfl, rfl⟩

theorem quiet_notice (n : Notice) : Quiet (notice n) := fun _ => ⟨rfl, rfl, rfl⟩

theorem Quiet.bind {β : Type} {m : Emit α} {k : α → Emit β} (hm : Quiet m)
    (hk : ∀ a, Quiet (k a)) : Quiet (m >>= k) := by
  intro e
  obtain ⟨htally, hverdicts, hprobed⟩ := hm e
  obtain ⟨htally', hverdicts', hprobed'⟩ := hk (m.run e).1 (m.run e).2
  exact ⟨htally'.trans htally, hverdicts'.trans hverdicts, hprobed'.trans hprobed⟩

theorem quiet_notices (ns : List Notice) : Quiet (ns.forM notice) := by
  induction ns with
  | nil => exact quiet_pure ()
  | cons n ns ih => exact (quiet_notice n).bind fun _ => ih

/-- The answer is kept closed, for its evaluation is nothing to compare by. -/
theorem quiet_resolve (schema desired kind : String) : Quiet (resolve schema desired kind) := by
  intro e
  unfold StateT.run resolve
  dsimp only
  generalize e.names.resolve schema desired kind = answer
  exact ⟨rfl, rfl, rfl⟩

theorem Quiet.books_bind {m : Emit α} {k : α → Emit Script} (hm : Quiet m)
    (hk : ∀ a, Books pending objects checks (k a)) : Books pending objects checks (m >>= k) := by
  intro e
  obtain ⟨htally, hverdicts, hprobed⟩ := hm e
  have h := hk (m.run e).1 (m.run e).2
  rw [run_bind]
  constructor
  · rw [h.tally, htally]
  · exact h.objects
  · rw [h.probed, hprobed]
  · rw [h.verdicts, hverdicts]
  · rw [h.failures, hverdicts]
  · exact h.warned

/-- Items that count for nothing in front of what an action writes. -/
theorem Books.prepend (front : Script) (h : ∀ item ∈ front, item.counter? = none)
    {m : Emit Script} (hm : Books pending objects checks m) :
    Books pending objects checks (do return front ++ (← m)) := by
  intro e
  have hfront : front.counted = 0 := Script.counted_eq_zero h
  obtain ⟨htally, hobjects, hprobed, hverdicts, hfailures, hwarned⟩ := hm e
  have hitems : Script.counted (front ++ (m.run e).1) = (m.run e).1.counted := by
    rw [Script.counted_append, hfront, zero_add]
  refine ⟨?_, fun k hk => ?_, hprobed, hverdicts, ?_, ?_⟩
  · exact htally.trans (by rw [← hitems]; rfl)
  · exact (congrFun hitems k).trans (hobjects k hk)
  · exact (congrFun hitems _).trans hfailures
  · exact (Script.warned_of_counted (by rw [hfront]; rfl)).append hwarned

/-- The next verdict decides whether a remark is written. -/
theorem run_checked (item : Item) (object text : String) (e : Emission) :
    let e' := { e with verdicts := e.verdicts.tail, probed := e.probed ++ [text] }
    (checked item object text).run e =
      match (e.verdicts.headD .accepted).problem? with
      | none => ([item], e')
      | some problem => ([.unparsable problem, item],
          { e' with
            tally := e'.tally.bump .probeFailures
            notices := e'.notices ++ [.unparsable object problem] }) := by
  intro e'
  have hprobe : (probe text).run e = ((e.verdicts.headD .accepted).problem?, e') := rfl
  unfold checked
  rw [run_bind, hprobe]
  cases (e.verdicts.headD .accepted).problem? <;> rfl

theorem rejections_take_one (verdicts : List Verdict) :
    rejections (verdicts.take 1) =
      if (verdicts.headD .accepted).problem?.isSome then 1 else 0 := by
  cases verdicts with
  | nil => rfl
  | cons verdict rest => simp [rejections, List.countP_cons]

/-- A statement whose text is checked, and which was counted already. -/
theorem books_checked {item : Item} (hitem : item.isProbed = true) (object text : String) :
    Books item.counts item.counts 1 (checked item object text) := by
  have hcounter : item.counter? ≠ some .probeFailures := by
    cases item <;> cases hitem <;> simp [Item.counter?]
  have hcounts : item.counts .probeFailures = 0 := by
    cases item <;> cases hitem <;> rfl
  intro e
  have hrejections := rejections_take_one e.verdicts
  rw [run_checked]
  cases hproblem : (e.verdicts.headD .accepted).problem? with
  | none =>
    rw [hproblem] at hrejections
    exact {
      tally := by rw [Script.counted_cons, Script.counted_nil, add_zero]
      objects := fun k _ => by rw [Script.counted_cons, Script.counted_nil, add_zero]
      probed := List.length_append
      verdicts := List.drop_one.symm
      failures := by
        rw [hrejections, Script.counted_cons, Script.counted_nil, add_zero, hcounts]
        rfl
      warned := .cons hcounter .nil }
  | some problem =>
    rw [hproblem] at hrejections
    have hremark : (Item.unparsable problem).counts = Pi.single .probeFailures 1 := rfl
    have hcounted : Script.counted [.unparsable problem, item] =
        Pi.single .probeFailures 1 + item.counts := by
      rw [Script.counted_cons, Script.counted_cons, Script.counted_nil, add_zero, hremark]
    exact {
      tally := by rw [hcounted, Tally.get_bump, add_assoc]
      objects := fun k hk => by rw [hcounted, Pi.add_apply, Pi.single_eq_of_ne hk, zero_add]
      probed := List.length_append
      verdicts := List.drop_one.symm
      failures := by
        rw [hrejections, hcounted, Pi.add_apply, Pi.single_eq_same, hcounts]
        rfl
      warned := .remark problem hitem .nil }

theorem sum_single (k : Counter) (l : List α) (n : α → ℕ) :
    (fun j => (l.map fun a => (Pi.single k (n a) : Counter → ℕ) j).sum) =
      Pi.single k (l.map n).sum := by
  induction l with
  | nil =>
    rw [List.map_nil, List.sum_nil, Pi.single_zero]
    rfl
  | cons a l ih =>
    rw [List.map_cons, List.sum_cons, Pi.single_add, ← ih]
    rfl

theorem sum_ite_eq_countP (p : α → Bool) (l : List α) :
    (l.map fun a => if p a then 1 else 0).sum = l.countP p := by
  induction l with
  | nil => rfl
  | cons a l ih => rw [List.map_cons, List.sum_cons, ih, List.countP_cons, Nat.add_comm]

variable {f : α → Emit Script} {l : List α}

theorem books_each {n : α → Counter → ℕ} {p : α → ℕ} (h : ∀ a ∈ l, Books 0 (n a) (p a) (f a)) :
    Books 0 (fun k => (l.map fun a => n a k).sum) (l.map p).sum (each f l) := by
  induction l with
  | nil => exact books_pure rfl rfl
  | cons a l ih =>
    intro e
    exact (h a List.mem_cons_self e).append
      (ih (fun b hb => h b (List.mem_cons_of_mem _ hb)) ((f a).run e).2)

/-- Members that write statements of one kind. -/
theorem books_each_single {k : Counter} {n p : α → ℕ}
    (h : ∀ a ∈ l, Books 0 (Pi.single k (n a)) (p a) (f a)) :
    Books 0 (Pi.single k (l.map n).sum) (l.map p).sum (each f l) := by
  rw [← sum_single]
  exact books_each h

/-- Members whose texts are not checked. -/
theorem books_each_unchecked {k : Counter} {n : α → ℕ}
    (h : ∀ a ∈ l, Books 0 (Pi.single k (n a)) 0 (f a)) :
    Books 0 (Pi.single k (l.map n).sum) 0 (each f l) := by
  have hall := books_each_single h
  rwa [List.map_const', List.sum_replicate, smul_zero] at hall

/-- Members that write one statement each. -/
theorem books_each_one {k : Counter} (h : ∀ a ∈ l, Books 0 (Pi.single k 1) 0 (f a)) :
    Books 0 (Pi.single k l.length) 0 (each f l) := by
  have hall := books_each_unchecked h
  rwa [List.map_const', List.sum_replicate, smul_eq_mul, mul_one] at hall

/-- Members that write a statement if there is something to write. -/
theorem books_each_if {k : Counter} {p : α → Bool}
    (h : ∀ a ∈ l, Books 0 (Pi.single k (if p a then 1 else 0)) 0 (f a)) :
    Books 0 (Pi.single k (l.countP p)) 0 (each f l) := by
  have hall := books_each_unchecked h
  rwa [sum_ite_eq_countP] at hall

end Emit

end SchemaTransfer
