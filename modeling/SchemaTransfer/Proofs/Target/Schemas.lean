import SchemaTransfer.Proofs.Target.After
import SchemaTransfer.Proofs.Target.Comment

/-!
# Schemas in the scripts

All roles are created at the beginning, then all schemas of the catalog. Whatever comes behind
them creates no schema, and what it creates belongs to a schema of the catalog. Views are an
exception: their schemas are not looked up.
-/
namespace SchemaTransfer

namespace Item

/-- The schema that qualifies the name of the object that an item creates. -/
def qualifier? : Item → Option String
  | createSequence schema _ _ _ => some schema
  | createDomain schema _ _ => some schema
  | createTable table _ _ => some table.schema
  | createView schema _ _ => given (some schema)
  | createFunction schema _ _ => some schema
  | createTriggerFunction schema _ _ => some schema
  | _ => none

def isView : Item → Bool
  | createView .. => true
  | _ => false

def isSchema : Item → Bool
  | createSchema .. => true
  | _ => false

/-- The item creates no schema and no object of one, or it creates a view. -/
def isFree (item : Item) : Bool :=
  item.isView || (!item.isSchema && item.qualifier?.isNone)

/-- The item creates no schema, and what it creates, other than a view, has its schema in the
catalog. -/
structure Inside (c : Catalog) (item : Item) : Prop where
  noSchema : ∀ name owner, item ≠ .createSchema name owner
  known : item.isView = false → ∀ schema, item.qualifier? = some schema →
    c.schemas.contains schema = true

variable {c : Catalog} {schema : String}

theorem inside_of_isFree {item : Item} (h : item.isFree = true) : item.Inside c where
  noSchema name owner hschema := by
    rw [hschema] at h
    cases h
  known hview schema hschema := by
    rw [isFree, hview, hschema] at h
    simp at h

theorem inside_of_all_isFree {items : Script} (h : items.all isFree = true) :
    ∀ item ∈ items, item.Inside c := fun item hitem =>
  inside_of_isFree (List.all_eq_true.1 h item hitem)

/-- An item that creates an object of a schema. -/
theorem inside_of_qualifier {item : Item} (hitem : item.qualifier? = some schema)
    (h : c.schemas.contains schema = true) : item.Inside c where
  noSchema name owner hschema := by
    rw [hschema] at hitem
    cases hitem
  known _ other hother := by
    cases hitem.symm.trans hother
    exact h

end Item

open Emit Item

variable {c : Catalog} {s : Schema} {withTablespaces : Bool}

namespace Before

theorem IsPartOf.inside (h : c.schemas.contains s.name = true) {item : Item}
    (hitem : IsPartOf s.name item) : item.Inside c := by
  cases hitem with
  | createSequence name options owner => exact inside_of_qualifier rfl h
  | restartSequence name value => exact inside_of_isFree rfl
  | createDomain name base => exact inside_of_qualifier rfl h

theorem IsItemOf.inside {x : Schema × Table} (h : c.schemas.contains x.1.name = true) {item : Item}
    (hitem : IsItemOf withTablespaces x item) : item.Inside c := by
  cases hitem with
  | createTable columns => exact inside_of_qualifier rfl h
  | comment hcomment => cases hcomment <;> exact inside_of_isFree rfl
  | blank => exact inside_of_isFree rfl

end Before

/-- The sequence of an identity belongs to the schema of its table. -/
theorem every_emitAfter (h : ∀ x ∈ c.tables, c.schemas.contains x.1.name = true) :
    Every (Inside c) (emitAfter withTablespaces c) := by
  intro e item hitem
  obtain ⟨keys, indexes, identities, hscript⟩ := yields_emitAfter withTablespaces c e
  cases hscript.isItem item hitem with
  | clientEncoding => exact inside_of_isFree rfl
  | blank => exact inside_of_isFree rfl
  | key hx hkey => cases hkey <;> exact inside_of_isFree rfl
  | index hx hindex =>
    cases hindex
    exact inside_of_isFree rfl
  | foreignKey hx name k => exact inside_of_isFree rfl
  | identity hx hidentity =>
    cases hidentity with
    | createSequence name column options => exact inside_of_qualifier rfl (h _ hx)
    | setDefault column sequence => exact inside_of_isFree rfl
    | setValue column sequence => exact inside_of_isFree rfl

theorem Unsure.IsCopied.inside (h : ∀ s ∈ c.schemas.values, c.schemas.contains s.name = true)
    {item : Item} (hitem : IsCopied c item) : item.Inside c := by
  cases hitem with
  | createFunction hs name body => exact inside_of_qualifier rfl (h _ hs)
  | createTriggerFunction hs name body => exact inside_of_qualifier rfl (h _ hs)
  | _ => exact inside_of_isFree rfl

theorem every_emitUnsure (h : ∀ s ∈ c.schemas.values, c.schemas.contains s.name = true) :
    Every (Inside c) (emitUnsure c) := by
  intro e
  obtain ⟨rest, hitems, hrest⟩ := yields_emitUnsure c e
  have hpreamble : ∀ item ∈ Unsure.preamble, item.Inside c := inside_of_all_isFree rfl
  have hvalidations : ∀ item ∈ c.tables.flatMap Unsure.validations, item.Inside c := by
    intro item hitem
    obtain ⟨x, -, hitem⟩ := List.mem_flatMap.1 hitem
    obtain ⟨k, -, rfl⟩ := List.mem_map.1 hitem
    exact inside_of_isFree rfl
  rw [hitems, List.forall_mem_append, List.forall_mem_append]
  exact ⟨⟨hpreamble, hvalidations⟩, fun item hitem => (hrest item hitem).inside h⟩

/-- Where an element stands that a front part of the list does not have, the front part stands
before it. -/
theorem prefix_of_not_mem {α : Type} {front rest pre post : List α} {a : α}
    (h : front ++ rest = pre ++ a :: post) (ha : a ∉ front) : front <+: pre := by
  rcases List.append_eq_append_iff.1 h with ⟨mid, hpre, -⟩ | ⟨mid, hfront, hrest⟩
  · exact ⟨mid, hpre.symm⟩
  · cases mid with
    | nil =>
      rw [List.append_nil] at hfront
      rw [hfront]
    | cons b mid =>
      rw [List.cons_append] at hrest
      obtain ⟨rfl, -⟩ := List.cons.inj hrest
      refine absurd ?_ ha
      rw [hfront]
      exact List.mem_append_right _ List.mem_cons_self

/-- What stands ahead of the schemas. -/
def Before.front (c : Catalog) (tablespaces : Script) : Script :=
  [.clientEncoding, .blank] ++ tablespaces ++ c.roles.entries.flatMap Before.roleItems ++ [.blank]

theorem Before.front_plain {tablespaces : Script}
    (h : ∀ item ∈ tablespaces, Before.IsTablespace item) :
    ∀ item ∈ Before.front c tablespaces, item.isSchema = false ∧ item.qualifier? = none := by
  simp only [Before.front, List.forall_mem_append, List.forall_mem_cons, List.forall_mem_flatMap,
    Before.roleItems]
  refine ⟨⟨⟨⟨⟨rfl, rfl⟩, ⟨rfl, rfl⟩, List.forall_mem_nil _⟩, fun item hitem => ?_⟩,
    fun entry _ => ⟨⟨rfl, rfl⟩, fun item hitem => ?_⟩⟩, ⟨rfl, rfl⟩, List.forall_mem_nil _⟩
  · rcases h item hitem with rfl | ⟨name, location, rfl⟩ <;> exact ⟨rfl, rfl⟩
  · obtain ⟨text, -, rfl⟩ := Option.map_eq_some_iff.1 (Option.mem_toList.1 hitem)
    exact ⟨rfl, rfl⟩

namespace Catalog.WellKept

theorem contains_iff (h : c.WellKept) {schema : String} :
    c.schemas.contains schema = true ↔ ∃ s ∈ c.schemas.values, s.name = schema := by
  rw [Keyed.contains_iff_mem_keys]
  constructor
  · intro hkey
    obtain ⟨entry, hentry, rfl⟩ := List.mem_map.1 hkey
    exact ⟨entry.2, List.mem_map_of_mem hentry, (h.schemas entry hentry).name⟩
  · rintro ⟨s, hs, rfl⟩
    obtain ⟨entry, hentry, rfl⟩ := List.mem_map.1 hs
    rw [(h.schemas entry hentry).name]
    exact List.mem_map_of_mem hentry

theorem contains_of_mem_tables (h : c.WellKept) :
    ∀ x ∈ c.tables, c.schemas.contains x.1.name = true := by
  intro x hx
  obtain ⟨s, hs, hx⟩ := List.mem_flatMap.1 hx
  obtain ⟨t, -, rfl⟩ := List.mem_map.1 hx
  exact h.contains_iff.2 ⟨s, hs, rfl⟩

end Catalog.WellKept

/-- The scripts in a row: what stands ahead of the schemas, the schemas, and what stands behind
them. -/
structure Layout (c : Catalog) (items tablespaces rest : Script) : Prop where
  parts : items = Before.front c tablespaces ++ (c.schemas.values.map Before.schemaItem ++ rest)
  tablespaces : ∀ item ∈ tablespaces, Before.IsTablespace item
  rest : ∀ item ∈ rest, item.Inside c

theorem emitScripts_layout (hkept : c.WellKept) {e e' : Emission} {scripts : Scripts}
    (h : (emitScripts withTablespaces c).run e = (.ok scripts, e')) :
    ∃ tablespaces rest,
      Layout c (scripts.before ++ scripts.after ++ scripts.unsure) tablespaces rest := by
  obtain ⟨hbefore, ⟨f, hafter⟩, g, hunsure⟩ := emitScripts_parts h
  obtain ⟨tablespaces, parts, hpreamble⟩ := Before.yields_preamble withTablespaces c e
  obtain ⟨tables, e'', htables, hbefore⟩ := emitBefore_eq_ok hbefore
  refine ⟨tablespaces, parts ++ tables ++ scripts.after ++ scripts.unsure, ?_,
    hpreamble.tablespaces, ?_⟩
  · rw [← hbefore, hpreamble.layout]
    simp only [Before.front, List.append_assoc]
  · have hschemas : ∀ s ∈ c.schemas.values, c.schemas.contains s.name = true := fun s hs =>
      hkept.contains_iff.2 ⟨s, hs, rfl⟩
    simp only [List.forall_mem_append]
    refine ⟨⟨⟨fun item hitem => ?_, ?_⟩, ?_⟩, ?_⟩
    · rcases hpreamble.parts item hitem with rfl | ⟨s, hs, hpart⟩
      · exact inside_of_isFree rfl
      · exact hpart.inside (hschemas s hs)
    · intro item hitem
      obtain ⟨x, hx, hitem⟩ := Before.isItemOf_of_tables htables item hitem
      exact hitem.inside (hkept.contains_of_mem_tables x hx)
    · rw [← hafter]
      exact every_emitAfter hkept.contains_of_mem_tables f
    · rw [← hunsure]
      exact every_emitUnsure hschemas g

namespace Layout

variable {items tablespaces rest pre post : Script} {item : Item} {schema owner : String}

theorem mem_iff (h : Layout c items tablespaces rest) :
    item ∈ items ↔ item ∈ Before.front c tablespaces ∨
      (∃ s ∈ c.schemas.values, Before.schemaItem s = item) ∨ item ∈ rest := by
  rw [h.parts, List.mem_append, List.mem_append, List.mem_map]

/-- Exactly the schemas of the catalog are created. -/
theorem createSchema_mem_iff (h : Layout c items tablespaces rest) {given : Option String} :
    .createSchema schema given ∈ items ↔
      ∃ s ∈ c.schemas.values, Before.schemaItem s = .createSchema schema given := by
  rw [h.mem_iff]
  constructor
  · rintro (hitem | hitem | hitem)
    · cases (Before.front_plain h.tablespaces _ hitem).1
    · exact hitem
    · exact absurd rfl ((h.rest _ hitem).noSchema schema given)
  · exact fun hitem => .inr (.inl hitem)

theorem mem_rest (h : Layout c items tablespaces rest) (hitem : item ∈ items)
    (hschema : item.qualifier? = some schema) : item ∈ rest := by
  rcases h.mem_iff.1 hitem with hitem | ⟨s, -, rfl⟩ | hitem
  · rw [(Before.front_plain h.tablespaces _ hitem).2] at hschema
    cases hschema
  · cases hschema
  · exact hitem

/-- All schemas are created ahead of what is qualified by one. -/
theorem schemas_before (h : Layout c items tablespaces rest) (hsplit : items = pre ++ item :: post)
    (hschema : item.qualifier? = some schema) {s : Schema} (hs : s ∈ c.schemas.values) :
    Before.schemaItem s ∈ pre := by
  have hparts : (Before.front c tablespaces ++ c.schemas.values.map Before.schemaItem) ++ rest =
      pre ++ item :: post := by rw [List.append_assoc, ← h.parts, hsplit]
  have hprefix :
      Before.front c tablespaces ++ c.schemas.values.map Before.schemaItem <+: pre := by
    apply prefix_of_not_mem hparts
    rw [List.mem_append]
    rintro (hitem | hitem)
    · rw [(Before.front_plain h.tablespaces _ hitem).2] at hschema
      cases hschema
    · obtain ⟨s, -, rfl⟩ := List.mem_map.1 hitem
      cases hschema
  exact hprefix.mem (List.mem_append_right _ (List.mem_map_of_mem hs))

/-- All roles are created ahead of the schemas. -/
theorem role_before (h : Layout c items tablespaces rest) {given : Option String}
    (hsplit : items = pre ++ .createSchema schema given :: post)
    (howner : c.roles.contains owner = true) : .createRole owner ∈ pre := by
  have hprefix : Before.front c tablespaces <+: pre := by
    apply prefix_of_not_mem (h.parts.symm.trans hsplit)
    intro hitem
    cases (Before.front_plain h.tablespaces _ hitem).1
  rw [Keyed.contains_iff_mem_keys] at howner
  obtain ⟨entry, hentry, rfl⟩ := List.mem_map.1 howner
  apply hprefix.mem
  simp only [Before.front, List.mem_append, List.mem_flatMap]
  exact .inl (.inr ⟨entry, hentry, List.mem_cons_self⟩)

end Layout

/-- A schema has its owner among the roles. -/
theorem Catalog.WellKept.owner_contains (hkept : c.WellKept) {schema owner : String}
    (h : ∃ s ∈ c.schemas.values, Before.schemaItem s = .createSchema schema (some owner)) :
    c.roles.contains owner = true := by
  obtain ⟨s, hs, hitem⟩ := h
  obtain ⟨entry, hentry, rfl⟩ := List.mem_map.1 hs
  obtain ⟨-, hgiven⟩ := Item.createSchema.inj hitem
  exact (hkept.schemas entry hentry).authorization owner
    (Option.eq_some_of_filter_eq_some hgiven)

/-- What stands before an item of the scripts: before whatever a schema qualifies all schemas of
the catalog, to which its own belongs unless it is a view; before a schema all roles. -/
theorem emitScripts_order (hkept : c.WellKept) {e e' : Emission} {scripts : Scripts}
    (h : (emitScripts withTablespaces c).run e = (.ok scripts, e'))
    {pre post : Script} {item : Item}
    (hsplit : scripts.before ++ scripts.after ++ scripts.unsure = pre ++ item :: post) :
    (∀ schema, item.qualifier? = some schema →
      (∀ other, (∃ owner, .createSchema other owner ∈ pre) ↔ c.schemas.contains other = true) ∧
      (item.isView = false → c.schemas.contains schema = true)) ∧
    ∀ schema owner, item = .createSchema schema (some owner) → .createRole owner ∈ pre := by
  obtain ⟨tablespaces, rest, hlayout⟩ := emitScripts_layout hkept h
  rw [hsplit] at hlayout
  have hitem : item ∈ pre ++ item :: post := List.mem_append_right _ List.mem_cons_self
  constructor
  · intro schema hschema
    refine ⟨fun other => ?_, fun hview => ?_⟩
    · rw [hkept.contains_iff]
      constructor
      · rintro ⟨owner, hother⟩
        obtain ⟨s, hs, hcreated⟩ := hlayout.createSchema_mem_iff.1 (List.mem_append_left _ hother)
        exact ⟨s, hs, (Item.createSchema.inj hcreated).1⟩
      · rintro ⟨s, hs, rfl⟩
        exact ⟨_, hlayout.schemas_before rfl hschema hs⟩
    · exact (hlayout.rest item (hlayout.mem_rest hitem hschema)).known hview schema hschema
  · rintro schema owner rfl
    exact hlayout.role_before rfl (hkept.owner_contains (hlayout.createSchema_mem_iff.1 hitem))

end SchemaTransfer
