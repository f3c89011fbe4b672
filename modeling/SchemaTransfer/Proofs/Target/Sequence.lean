import SchemaTransfer.Proofs.Names.Normal
import SchemaTransfer.Proofs.Target.After
import SchemaTransfer.Proofs.Target.Comment

/-!
# Sequences in the scripts

The script to run before loading creates the sequences of the catalog and restarts some of them. The
one to run after loading creates those of the identities, each of which belongs to its column, and
restarts none.
-/
namespace SchemaTransfer
open Emit

namespace Item

def isSequence : Item → Bool
  | createSequence .. => true
  | restartSequence .. => true
  | _ => false

/-- The column that owns a sequence that is created, with the options of the sequence. -/
def ownedSequence? : Item → Option ((TableName × String) × SequenceOptions)
  | createSequence _ _ options owner => owner.map (·, options)
  | _ => none

end Item

variable {withTablespaces : Bool} {c : Catalog}

namespace Before

/-- What the items do to sequences, they do to those of the catalog: one that is restarted is also
created, with the options of the sequence that the restart is of. -/
structure OfSequences (c : Catalog) (items : Script) : Prop where
  created : ∀ schema name options owner, .createSequence schema name options owner ∈ items →
    ∃ s ∈ c.schemas.values, ∃ q ∈ s.sequences.values, options = Before.options q
  restarted : ∀ schema name value, .restartSequence schema name value ∈ items →
    ∃ q : Sequence, .createSequence schema name (options q) none ∈ items ∧
      q.resolvedRestart = some value

theorem ofSequences_of_not {items : Script} (h : ∀ item ∈ items, item.isSequence = false) :
    OfSequences c items where
  created _ _ _ _ hmem := nomatch h _ hmem
  restarted _ _ _ hmem := nomatch h _ hmem

theorem OfSequences.append {items more : Script} (h : OfSequences c items)
    (hmore : OfSequences c more) : OfSequences c (items ++ more) where
  created schema name options owner hmem :=
    (List.mem_append.1 hmem).elim (h.created schema name options owner)
      (hmore.created schema name options owner)
  restarted schema name value hmem := by
    rcases List.mem_append.1 hmem with hmem | hmem
    · obtain ⟨q, hq, hvalue⟩ := h.restarted schema name value hmem
      exact ⟨q, List.mem_append_left _ hq, hvalue⟩
    · obtain ⟨q, hq, hvalue⟩ := hmore.restarted schema name value hmem
      exact ⟨q, List.mem_append_right _ hq, hvalue⟩

theorem yields_sequence {s : Schema} (hs : s ∈ c.schemas.values) {q : Sequence}
    (hq : q ∈ s.sequences.values) : Yields (OfSequences c) (sequence s q) := by
  refine yields_bind fun name => yields_bind fun _ => yields_bind fun _ => yields_pure ?_
  constructor
  · intro schema other others owner hmem
    rcases List.mem_cons.1 hmem with hitem | hmem
    · cases hitem
      exact ⟨s, hs, q, hq, rfl⟩
    · obtain ⟨value, -, hitem⟩ := Option.map_eq_some_iff.1 (Option.mem_toList.1 hmem)
      cases hitem
  · intro schema other value hmem
    rcases List.mem_cons.1 hmem with hitem | hmem
    · cases hitem
    · obtain ⟨value, hvalue, hitem⟩ := Option.map_eq_some_iff.1 (Option.mem_toList.1 hmem)
      cases hitem
      exact ⟨q, List.mem_cons_self, hvalue⟩

theorem yields_sequences (c : Catalog) : Yields (OfSequences c)
    (each (fun s => each (sequence s) s.sequences.values) c.schemas.values) :=
  yields_each_append (ofSequences_of_not (List.forall_mem_nil _)) .append fun _ hs =>
    yields_each_append (ofSequences_of_not (List.forall_mem_nil _)) .append fun _ hq =>
      yields_sequence hs hq

theorem yields_preamble_sequences (withTablespaces : Bool) (c : Catalog) :
    Yields (OfSequences c) (preamble withTablespaces c) := by
  have htablespaces : Every (·.isSequence = false) (tablespaces withTablespaces c) := by
    intro e item hitem
    rcases every_tablespaces withTablespaces c e item hitem with rfl | ⟨name, location, rfl⟩ <;> rfl
  have hroles : Every (·.isSequence = false) (each role c.roles.entries) := by
    refine every_each fun entry _ => yields_bind fun _ => yields_pure fun item hitem => ?_
    cases isRole_of_mem item hitem <;> rfl
  have hschemas : Every (·.isSequence = false) (each schema c.schemas.values) :=
    every_each fun _ _ => yields_bind fun _ => every_singleton rfl
  have hdomains : Every (·.isSequence = false)
      (each (fun s => each (domain s) s.domains.entries) c.schemas.values) :=
    every_each fun _ _ => every_each fun _ _ => yields_bind fun _ => every_singleton rfl
  refine Yields.bind htablespaces fun tablespaces htablespaces => ?_
  refine Yields.bind hroles fun roles hroles => ?_
  refine Yields.bind hschemas fun schemas hschemas => ?_
  refine Yields.bind (yields_sequences c) fun sequences hsequences => ?_
  refine Yields.bind hdomains fun domains hdomains => yields_pure ?_
  have hfront : OfSequences c ([.clientEncoding, .blank] ++ tablespaces ++ roles ++ [.blank] ++
      schemas ++ [.blank]) := by
    refine ofSequences_of_not ?_
    simp only [List.forall_mem_append, List.forall_mem_cons]
    exact ⟨⟨⟨⟨⟨⟨rfl, rfl, List.forall_mem_nil _⟩, htablespaces⟩, hroles⟩, rfl,
      List.forall_mem_nil _⟩, hschemas⟩, rfl, List.forall_mem_nil _⟩
  exact ((hfront.append hsequences).append (ofSequences_of_not hdomains)).append
    (ofSequences_of_not (List.forall_mem_singleton.2 rfl))

theorem isSequence_of_isItemOf {x : Schema × Table} {item : Item}
    (h : IsItemOf withTablespaces x item) : item.isSequence = false := by
  cases h with
  | createTable columns => rfl
  | comment hcomment => cases hcomment <;> rfl
  | blank => rfl

end Before

variable {e : Emission} {script : Script}

theorem emitBefore_sequences (h : ((emitBefore withTablespaces c).run e).1 = .ok script) :
    Before.OfSequences c script := by
  obtain ⟨tables, e', htables, rfl⟩ := emitBefore_eq_ok h
  refine Before.OfSequences.append (Before.yields_preamble_sequences withTablespaces c e)
    (Before.ofSequences_of_not fun item hitem => ?_)
  obtain ⟨x, -, hitem⟩ := Before.isItemOf_of_tables htables item hitem
  exact Before.isSequence_of_isItemOf hitem

/-- No two of the items introduce one name in the target. -/
theorem emitBefore_introduced (h : ((emitBefore withTablespaces c).run e).1 = .ok script) :
    script.introduced.Pairwise fun a b => normalize a.1 = normalize b.1 → a.2 ≠ b.2 := by
  rw [((gives_emitBefore withTablespaces c) e).2 script h, List.nil_append, List.pairwise_map]
  exact e.names.serveAll_pairwise _

/-- The sequence of the catalog that is created is the one that is restarted under its name. -/
theorem emitBefore_restarted (h : ((emitBefore withTablespaces c).run e).1 = .ok script)
    {schema other name : String} {options : SequenceOptions} {owner : Option (TableName × String)}
    {value : Int} (hcreate : .createSequence schema name options owner ∈ script)
    (hrestart : .restartSequence other name value ∈ script)
    (hschema : normalize schema = normalize other) :
    ∃ q : Sequence, options = Before.options q ∧ q.resolvedRestart = some value := by
  obtain ⟨q, hq, hvalue⟩ := (emitBefore_sequences h).restarted other name value hrestart
  refine ⟨q, ?_, hvalue⟩
  -- Otherwise two items of the script introduce the same name.
  by_contra hne
  have hpairwise := List.pairwise_filterMap.1 (emitBefore_introduced h)
  have hsymm : Std.Symm fun i j : Item => ∀ a, i.introduced? = some a →
      ∀ b, j.introduced? = some b → normalize a.1 = normalize b.1 → a.2 ≠ b.2 :=
    ⟨fun i j hij a ha b hb hsame => (hij b hb a ha hsame.symm).symm⟩
  refine hpairwise.forall hcreate hq (fun hsame => ?_) _ rfl _ rfl hschema rfl
  cases hsame
  exact hne rfl

namespace After

/-- The column with an identity, with the options of the sequence that it gets. -/
def ownedBy (x : Schema × Table) (k : Column) : Option ((TableName × String) × SequenceOptions) :=
  k.identity.map fun i => ((⟨x.1.name, x.2.name⟩, k.name), options i)

theorem yields_identity_owned (x : Schema × Table) (k : Column) :
    Yields (·.filterMap Item.ownedSequence? = (ownedBy x k).toList) (identity x.1 x.2 k) := by
  unfold identity ownedBy
  cases k.identity with
  | none => exact yields_pure rfl
  | some i => exact yields_bind fun _ => yields_bind fun _ => yields_bind fun _ => yields_pure rfl

end After

/-- The script creates a sequence for each column with an identity, and no other sequences that a
column owns. -/
theorem yields_emitAfter_owned (withTablespaces : Bool) (c : Catalog) :
    Yields (·.filterMap Item.ownedSequence? = c.tables.flatMap fun x =>
      x.2.sortedColumns.filterMap (After.ownedBy x)) (emitAfter withTablespaces c) := by
  intro e
  have howned : Yields (·.filterMap Item.ownedSequence? = c.tables.flatMap fun x =>
      x.2.sortedColumns.filterMap (After.ownedBy x)) (each After.identities c.tables) := by
    refine yields_each_filterMap fun x _ => ?_
    rw [List.filterMap_eq_flatMap_toList]
    exact yields_each_filterMap fun k _ => After.yields_identity_owned x k
  obtain ⟨keys, indexes, identities, hscript, -, hidentities⟩ :=
    yields_emitAfter_parts (After.every_table After.every_isKeyOf) howned e
  have hkeys : keys.filterMap Item.ownedSequence? = [] := by
    refine List.filterMap_eq_nil_iff.2 fun item hitem => ?_
    obtain ⟨x, -, hkey⟩ := hscript.keys item hitem
    cases hkey <;> rfl
  have hindexes : indexes.filterMap Item.ownedSequence? = [] := by
    refine List.filterMap_eq_nil_iff.2 fun item hitem => ?_
    obtain ⟨x, -, hindex⟩ := hscript.indexes item hitem
    cases hindex
    rfl
  have hforeignKeys :
      (c.tables.flatMap After.foreignKeyItems).filterMap Item.ownedSequence? = [] := by
    refine List.filterMap_eq_nil_iff.2 (List.forall_mem_flatMap.2 fun x _ item hitem => ?_)
    obtain ⟨k, -, rfl⟩ := List.mem_map.1 hitem
    rfl
  rw [hscript.layout]
  simp only [List.filterMap_append, hkeys, hindexes, hforeignKeys, hidentities, List.append_nil]
  rfl

/-- All sequences that the script creates are owned, and it restarts none. -/
theorem After.IsItem.owned {item : Item} (h : IsItem withTablespaces c item)
    (hsequence : item.isSequence = true) : ∃ schema name options table column,
      item = .createSequence schema name options (some (table, column)) := by
  cases h with
  | clientEncoding => cases hsequence
  | blank => cases hsequence
  | key hx hkey => cases hkey <;> cases hsequence
  | index hx hindex => cases hindex; cases hsequence
  | foreignKey hx name k => cases hsequence
  | identity hx hidentity =>
    cases hidentity with
    | createSequence name column options => exact ⟨_, name, options, _, column, rfl⟩
    | setDefault column sequence => cases hsequence
    | setValue column sequence => cases hsequence

/-- The options with which the script creates a sequence are those of the identity of its owner. -/
theorem mem_emitAfter_owned {item : Item} (hitem : item ∈ ((emitAfter withTablespaces c).run e).1)
    (hsequence : item.isSequence = true) :
    ∃ x ∈ c.tables, ∃ k ∈ x.2.columns, ∃ i : Identity, k.identity = some i ∧
      ∃ schema name, item = .createSequence schema name (After.options i)
        (some (⟨x.1.name, x.2.name⟩, k.name)) := by
  obtain ⟨keys, indexes, identities, hscript⟩ := yields_emitAfter withTablespaces c e
  obtain ⟨schema, name, options, table, column, rfl⟩ := (hscript.isItem item hitem).owned hsequence
  have howned : ((table, column), options) ∈
      ((emitAfter withTablespaces c).run e).1.filterMap Item.ownedSequence? :=
    List.mem_filterMap.2 ⟨_, hitem, rfl⟩
  rw [yields_emitAfter_owned withTablespaces c e] at howned
  obtain ⟨x, hx, howned⟩ := List.mem_flatMap.1 howned
  obtain ⟨k, hk, howned⟩ := List.mem_filterMap.1 howned
  obtain ⟨i, hi, howned⟩ := Option.map_eq_some_iff.1 howned
  cases howned
  exact ⟨x, hx, k, (List.mergeSort_perm _ _).mem_iff.1 hk, i, hi, schema, name, rfl⟩

/-- Every identity gets a sequence. -/
theorem exists_mem_emitAfter (withTablespaces : Bool) (e : Emission) {x : Schema × Table}
    (hx : x ∈ c.tables) {k : Column} (hk : k ∈ x.2.columns) {i : Identity}
    (hi : k.identity = some i) : ∃ schema name,
      .createSequence schema name (After.options i) (some (⟨x.1.name, x.2.name⟩, k.name)) ∈
        ((emitAfter withTablespaces c).run e).1 := by
  have howned : ((⟨x.1.name, x.2.name⟩, k.name), After.options i) ∈
      ((emitAfter withTablespaces c).run e).1.filterMap Item.ownedSequence? := by
    rw [yields_emitAfter_owned withTablespaces c e]
    refine List.mem_flatMap.2 ⟨x, hx, List.mem_filterMap.2 ⟨k, ?_, ?_⟩⟩
    · exact (List.mergeSort_perm _ _).mem_iff.2 hk
    · rw [After.ownedBy, hi]
      rfl
  obtain ⟨item, hitem, howned⟩ := List.mem_filterMap.1 howned
  cases item with
  | createSequence schema name options owner =>
    obtain ⟨column, rfl, howned⟩ := Option.map_eq_some_iff.1 howned
    cases howned
    exact ⟨schema, name, hitem⟩
  | _ => cases howned

end SchemaTransfer
