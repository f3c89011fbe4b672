/-!
# Tables with text keys

The entries stand in the order of their keys, by code point, and no key occurs twice. So two tables
with the same entries are equal in whatever order the entries were put in.
-/
namespace SchemaTransfer

structure Keyed (α : Type) where
  entries : List (String × α)
  ordered : entries.Pairwise fun a b => a.1 < b.1
  deriving DecidableEq

namespace Keyed

variable {α : Type}

def empty : Keyed α := ⟨[], .nil⟩

instance : Inhabited (Keyed α) := ⟨empty⟩

/-- Puts an entry at its place, instead of the one with the same key if there is one. -/
def insertEntry (k : String) (a : α) : List (String × α) → List (String × α)
  | [] => [(k, a)]
  | (l, b) :: es =>
    if k < l then (k, a) :: (l, b) :: es
    else if k = l then (k, a) :: es
    else (l, b) :: insertEntry k a es

theorem lt_of_mem_insertEntry {k l : String} {a : α} {es : List (String × α)} (hk : l < k)
    (hes : ∀ e ∈ es, l < e.1) : ∀ e ∈ insertEntry k a es, l < e.1 := by
  fun_induction insertEntry k a es with
  | case1 => simpa using hk
  | case2 m b es _ => exact List.forall_mem_cons.2 ⟨hk, hes⟩
  | case3 b es _ => exact List.forall_mem_cons.2 ⟨hk, (List.forall_mem_cons.1 hes).2⟩
  | case4 m b es _ _ ih =>
    obtain ⟨hm, hes⟩ := List.forall_mem_cons.1 hes
    exact List.forall_mem_cons.2 ⟨hm, ih hes⟩

theorem insertEntry_ordered (k : String) (a : α) {es : List (String × α)}
    (h : es.Pairwise fun a b => a.1 < b.1) :
    (insertEntry k a es).Pairwise fun a b => a.1 < b.1 := by
  fun_induction insertEntry k a es with
  | case1 => simp
  | case2 m b es hlt =>
    refine List.pairwise_cons.2 ⟨?_, h⟩
    intro e he
    rcases List.mem_cons.1 he with rfl | he
    · exact hlt
    · exact String.lt_trans hlt ((List.pairwise_cons.1 h).1 e he)
  | case3 b es _ => exact List.pairwise_cons.2 (List.pairwise_cons.1 h)
  | case4 m b es hlt hne ih =>
    obtain ⟨hm, hes⟩ := List.pairwise_cons.1 h
    have hmk : m < k := by
      rcases String.le_total k m with hle | hle
      · exact absurd (String.le_antisymm hle (String.not_lt.1 hlt)) hne
      · exact String.not_le.1 fun hkm => hne (String.le_antisymm hkm hle)
    exact List.pairwise_cons.2 ⟨lt_of_mem_insertEntry hmk hm, ih hes⟩

def insert (t : Keyed α) (k : String) (a : α) : Keyed α :=
  ⟨insertEntry k a t.entries, insertEntry_ordered k a t.ordered⟩

def get? (t : Keyed α) (k : String) : Option α := t.entries.lookup k

def contains (t : Keyed α) (k : String) : Bool := (t.get? k).isSome

def keys (t : Keyed α) : List String := t.entries.map (·.1)

def values (t : Keyed α) : List α := t.entries.map (·.2)

def size (t : Keyed α) : Nat := t.entries.length

/-- Of two entries with the same key the later one stays. -/
def ofList (es : List (String × α)) : Keyed α := es.foldl (fun t e => t.insert e.1 e.2) empty

theorem lookup_insertEntry (k l : String) (a : α) (es : List (String × α)) (h : k ≠ l) :
    (insertEntry k a es).lookup l = es.lookup l := by
  have hlk : (l == k) = false := by simp [Ne.symm h]
  fun_induction insertEntry k a es with
  | case1 => simp [List.lookup_cons, hlk]
  | case2 m b es _ => rw [List.lookup_cons, hlk]
  | case3 b es _ => rw [List.lookup_cons, List.lookup_cons, hlk]
  | case4 m b es _ _ ih => rw [List.lookup_cons, List.lookup_cons, ih]

theorem lookup_insertEntry_self (k : String) (a : α) (es : List (String × α)) :
    (insertEntry k a es).lookup k = some a := by
  fun_induction insertEntry k a es with
  | case1 => simp
  | case2 => simp
  | case3 => simp
  | case4 m b es _ hne ih =>
    have hkm : (k == m) = false := by simp [hne]
    rw [List.lookup_cons, hkm, ih]

@[simp] theorem get?_insert_self (t : Keyed α) (k : String) (a : α) :
    (t.insert k a).get? k = some a :=
  lookup_insertEntry_self k a t.entries

theorem get?_insert_of_ne (t : Keyed α) {k l : String} (a : α) (h : k ≠ l) :
    (t.insert k a).get? l = t.get? l :=
  lookup_insertEntry k l a t.entries h

@[simp] theorem get?_empty (k : String) : (empty : Keyed α).get? k = none := rfl

end Keyed

end SchemaTransfer
