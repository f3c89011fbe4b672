import SchemaTransfer.Proofs.Target.Yields

/-!
# What stands ahead of the tables

The script to run before loading begins with tablespaces, the roles, the schemas, and with what the
schemas hold other than tables. All roles stand ahead of the schemas, and these ahead of the rest.
-/
namespace SchemaTransfer

namespace Emit

variable {α : Type} {p : Item → Prop}

/-- Every item that is emitted has a property, whatever was emitted before. -/
def Every (p : Item → Prop) (m : Emit Script) : Prop :=
  Yields (fun items => ∀ item ∈ items, p item) m

theorem Every.bind {m : Emit Script} {k : Script → Emit Script} (hm : Every p m)
    (hk : ∀ items, (∀ item ∈ items, p item) → Every p (k items)) : Every p (m >>= k) :=
  Yields.bind hm hk

theorem every_nil : Every p (pure []) := yields_pure (List.forall_mem_nil p)

theorem every_singleton {item : Item} (h : p item) : Every p (pure [item]) :=
  yields_pure (List.forall_mem_singleton.2 h)

theorem every_each {f : α → Emit Script} {l : List α} (h : ∀ a ∈ l, Every p (f a)) :
    Every p (each f l) :=
  yields_each_append (List.forall_mem_nil p) (fun ha hb => List.forall_mem_append.2 ⟨ha, hb⟩) h

/-- The checker adds at most one remark ahead of what it checks. -/
theorem yields_checked (item : Item) (object text : String) :
    Yields (fun items => items = [item] ∨ ∃ problem, items = [.unparsable problem, item])
      (checked item object text) := by
  refine yields_bind fun problem => ?_
  cases problem with
  | none => exact yields_pure (.inl rfl)
  | some problem =>
    exact yields_bind fun _ => yields_bind fun _ => yields_pure (.inr ⟨problem, rfl⟩)

theorem every_checked {item : Item} {object text : String} (h : p item)
    (hremark : ∀ problem, p (.unparsable problem)) : Every p (checked item object text) := by
  intro e
  obtain hitems | ⟨problem, hitems⟩ := yields_checked item object text e
  · rw [hitems]
    exact List.forall_mem_singleton.2 h
  · rw [hitems]
    exact List.forall_mem_cons.2 ⟨hremark problem, List.forall_mem_singleton.2 h⟩

/-- What depends on the members of a list alone. -/
theorem yields_each_eq {f : α → Emit Script} {g : α → Script} {l : List α}
    (h : ∀ a ∈ l, Yields (· = g a) (f a)) : Yields (· = l.flatMap g) (each f l) := by
  induction l with
  | nil => exact yields_pure rfl
  | cons a l ih =>
    refine (h a List.mem_cons_self).bind fun items hitems => ?_
    refine (ih fun b hb => h b (List.mem_cons_of_mem _ hb)).bind fun more hmore => ?_
    exact yields_pure (by rw [hitems, hmore, List.flatMap_cons])

/-- What is picked out of the items, if it depends on the members of a list alone. -/
theorem yields_each_filterMap {β : Type} {pick : Item → Option β} {f : α → Emit Script}
    {g : α → List β} {l : List α} (h : ∀ a ∈ l, Yields (·.filterMap pick = g a) (f a)) :
    Yields (·.filterMap pick = l.flatMap g) (each f l) := by
  intro e
  obtain ⟨groups, hgroups, hitems⟩ := yields_each h e
  rw [hitems, List.filterMap_flatten]
  clear hitems h
  induction hgroups with
  | nil => rfl
  | cons hgroup _ ih => rw [List.map_cons, List.flatten_cons, hgroup, ih, List.flatMap_cons]

end Emit

namespace Before
open Emit

def roleItems (entry : String × Role) : Script :=
  .createRole entry.1 :: (entry.2.comment.map (Item.commentRole entry.1)).toList

/-- An item about a role. -/
inductive IsRole (name : String) : Item → Prop
  | createRole : IsRole name (.createRole name)
  | commentRole (text : String) : IsRole name (.commentRole name text)

theorem isRole_of_mem {entry : String × Role} : ∀ item ∈ roleItems entry, IsRole entry.1 item := by
  intro item hitem
  rcases List.mem_cons.1 hitem with rfl | hitem
  · exact .createRole
  · obtain ⟨text, -, rfl⟩ := Option.map_eq_some_iff.1 (Option.mem_toList.1 hitem)
    exact .commentRole text

def schemaItem (s : Schema) : Item := .createSchema s.name (given s.authorization)

/-- An item about tablespaces. -/
def IsTablespace (item : Item) : Prop :=
  item = .blank ∨ ∃ name location, item = .createTablespace name location

/-- An item about a sequence or a domain of a schema. -/
inductive IsPartOf (schema : String) : Item → Prop
  | createSequence (name : String) (options : SequenceOptions)
      (owner : Option (TableName × String)) :
      IsPartOf schema (.createSequence schema name options owner)
  | restartSequence (name : String) (value : Int) :
      IsPartOf schema (.restartSequence schema name value)
  | createDomain (name base : String) : IsPartOf schema (.createDomain schema name base)

theorem every_tablespace (entry : String × Tablespace) : Every IsTablespace (tablespace entry) := by
  unfold tablespace
  split
  · exact yields_bind fun _ => every_nil
  · next path rest hpaths =>
    exact yields_bind fun _ => every_singleton (.inr ⟨entry.1, path, rfl⟩)

theorem every_tablespaces (withTablespaces : Bool) (c : Catalog) :
    Every IsTablespace (tablespaces withTablespaces c) := by
  cases withTablespaces with
  | false => exact every_nil
  | true =>
    refine Every.bind (every_each fun entry _ => every_tablespace entry) fun items hitems => ?_
    exact yields_pure
      (List.forall_mem_append.2 ⟨hitems, List.forall_mem_singleton.2 (.inl rfl)⟩)

theorem every_sequence (s : Schema) (q : Sequence) : Every (IsPartOf s.name) (sequence s q) := by
  unfold sequence
  refine yields_bind fun name => yields_bind fun _ => yields_bind fun _ => yields_pure ?_
  refine List.forall_mem_cons.2 ⟨.createSequence name _ _, fun item hitem => ?_⟩
  obtain ⟨value, -, rfl⟩ := Option.map_eq_some_iff.1 (Option.mem_toList.1 hitem)
  exact .restartSequence name value

theorem every_domain (s : Schema) (entry : String × Domain) :
    Every (IsPartOf s.name) (domain s entry) :=
  yields_bind fun _ => every_singleton (.createDomain entry.1 entry.2.baseType)

/-- The parts of several schemas. -/
theorem every_part {c : Catalog} {f : Schema → Emit Script}
    (h : ∀ s, Every (IsPartOf s.name) (f s)) :
    Every (fun item => ∃ s ∈ c.schemas.values, IsPartOf s.name item) (each f c.schemas.values) :=
  every_each fun s hs e item hitem => ⟨s, hs, h s e item hitem⟩

/-- What is emitted ahead of the tables. -/
structure IsPreamble (c : Catalog) (items tablespaces parts : Script) : Prop where
  layout : items = [.clientEncoding, .blank] ++ tablespaces ++ c.roles.entries.flatMap roleItems ++
    [.blank] ++ c.schemas.values.map schemaItem ++ parts
  tablespaces : ∀ item ∈ tablespaces, IsTablespace item
  parts : ∀ item ∈ parts, item = .blank ∨ ∃ s ∈ c.schemas.values, IsPartOf s.name item

/-- An item ahead of the tables. -/
inductive IsAhead : Item → Prop
  | clientEncoding : IsAhead .clientEncoding
  | blank : IsAhead .blank
  | createTablespace (name location : String) : IsAhead (.createTablespace name location)
  | role {name : String} {item : Item} (h : IsRole name item) : IsAhead item
  | createSchema (name : String) (owner : Option String) : IsAhead (.createSchema name owner)
  | part {schema : String} {item : Item} (h : IsPartOf schema item) : IsAhead item

theorem IsPreamble.isAhead {c : Catalog} {items tablespaces parts : Script}
    (h : IsPreamble c items tablespaces parts) : ∀ item ∈ items, IsAhead item := by
  rw [h.layout]
  simp only [List.forall_mem_append, List.forall_mem_cons, List.forall_mem_flatMap,
    List.forall_mem_map]
  refine ⟨⟨⟨⟨⟨⟨.clientEncoding, .blank, List.forall_mem_nil _⟩, fun item hitem => ?_⟩,
    fun entry _ item hitem => .role (isRole_of_mem item hitem)⟩, .blank, List.forall_mem_nil _⟩,
    fun s _ => .createSchema s.name _⟩, fun item hitem => ?_⟩
  · rcases h.tablespaces item hitem with rfl | ⟨name, location, rfl⟩
    · exact .blank
    · exact .createTablespace name location
  · rcases h.parts item hitem with rfl | ⟨s, -, hpart⟩
    · exact .blank
    · exact .part hpart

/-- What is known of the items about tablespaces is kept. -/
theorem yields_preamble_of {q : Script → Prop} {withTablespaces : Bool} {c : Catalog}
    (h : Yields q (tablespaces withTablespaces c)) :
    Yields (fun items => ∃ tablespaces parts, IsPreamble c items tablespaces parts ∧ q tablespaces)
      (preamble withTablespaces c) := by
  have hall : Yields (fun items => (∀ item ∈ items, IsTablespace item) ∧ q items)
      (tablespaces withTablespaces c) := fun e => ⟨every_tablespaces withTablespaces c e, h e⟩
  unfold preamble
  refine hall.bind fun tablespaces htablespaces => ?_
  refine (yields_each_eq (g := roleItems) fun entry _ _ => rfl).bind fun roles hroles => ?_
  refine (yields_each_eq (g := fun s => [schemaItem s]) fun s _ _ => rfl).bind
    fun schemas hschemas => ?_
  refine Yields.bind (every_part fun s => every_each fun q _ => every_sequence s q)
    fun sequences hsequences => ?_
  refine Yields.bind (every_part fun s => every_each fun entry _ => every_domain s entry)
    fun domains hdomains => yields_pure ?_
  refine ⟨tablespaces, [.blank] ++ sequences ++ domains ++ [.blank],
    ⟨?_, htablespaces.1, ?_⟩, htablespaces.2⟩
  · rw [hroles, hschemas, List.map_eq_flatMap]
    simp only [List.append_assoc]
  · simp only [List.forall_mem_append, List.forall_mem_singleton, true_or, true_and, and_true]
    exact ⟨fun item hitem => .inr (hsequences item hitem),
      fun item hitem => .inr (hdomains item hitem)⟩

theorem yields_preamble (withTablespaces : Bool) (c : Catalog) :
    Yields (fun items => ∃ tablespaces parts, IsPreamble c items tablespaces parts)
      (preamble withTablespaces c) := by
  intro e
  obtain ⟨tablespaces, parts, h, -⟩ := yields_preamble_of (every_tablespaces withTablespaces c) e
  exact ⟨tablespaces, parts, h⟩

end Before

end SchemaTransfer
