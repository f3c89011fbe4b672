import SchemaTransfer.Proofs.Target.Preamble
import SchemaTransfer.Proofs.Target.Text

/-!
# The parts of the last two scripts

The script to run after loading has four parts, each of which goes over the tables of the catalog.
The one with the foreign keys depends on the catalog alone; of the other three it is known what
their items are. In the script that is copied the validations come first.
-/
namespace SchemaTransfer
open Emit

namespace After

/-- An item that adds a key to a table. -/
inductive IsKeyOf (withTablespaces : Bool) (x : Schema × Table) : Item → Prop
  | addPrimaryKey (name : Option String) (columns : List String) :
      IsKeyOf withTablespaces x (.addPrimaryKey ⟨x.1.name, x.2.name⟩ name columns
        (indexTablespace withTablespaces x.2))
  | addUnique (name : Option String) (columns : List String) :
      IsKeyOf withTablespaces x (.addUnique ⟨x.1.name, x.2.name⟩ name columns
        (indexTablespace withTablespaces x.2))

/-- An item that creates an index on a table. -/
inductive IsIndexOf (withTablespaces : Bool) (x : Schema × Table) : Item → Prop
  | createIndex (unique : Bool) (name : String) (columns : List IndexColumn) :
      IsIndexOf withTablespaces x (.createIndex unique name ⟨x.1.name, x.2.name⟩ columns
        (indexTablespace withTablespaces x.2))

/-- An item for an identity column of a table. -/
inductive IsIdentityOf (x : Schema × Table) : Item → Prop
  | createSequence (name column : String) (options : SequenceOptions) :
      IsIdentityOf x
        (.createSequence x.1.name name options (some (⟨x.1.name, x.2.name⟩, column)))
  | setDefault (column sequence : String) :
      IsIdentityOf x (.setDefault ⟨x.1.name, x.2.name⟩ column x.1.name sequence)
  | setValue (column sequence : String) :
      IsIdentityOf x (.setValue ⟨x.1.name, x.2.name⟩ column x.1.name sequence)

/-- The foreign keys of a table, under the names that they have in the target. -/
def foreignKeyItems (x : Schema × Table) : Script :=
  x.2.namedForeignKeys.map fun k => .addForeignKey ⟨x.1.name, x.2.name⟩ k.2 k.1

variable {withTablespaces : Bool}

theorem every_isKeyOf (x : Schema × Table) :
    Every (IsKeyOf withTablespaces x) (keys withTablespaces x) := by
  have hprimary (k : Key) :
      Every (IsKeyOf withTablespaces x) (primaryKey withTablespaces x.1 x.2 k) :=
    yields_bind fun name => yields_bind fun _ => every_singleton (.addPrimaryKey name k.columns)
  have hunique (k : Key) :
      Every (IsKeyOf withTablespaces x) (uniqueKey withTablespaces x.1 x.2 k) :=
    yields_bind fun name => yields_bind fun _ => every_singleton (.addUnique name k.columns)
  refine Every.bind (every_each fun k _ => hprimary k) fun primary hprimary => ?_
  refine Every.bind (every_each fun k _ => hunique k) fun unique hunique => yields_pure ?_
  exact List.forall_mem_append.2 ⟨hprimary, hunique⟩

theorem every_isIndexOf (x : Schema × Table) :
    Every (IsIndexOf withTablespaces x) (indexes withTablespaces x) := by
  refine every_each fun i _ => ?_
  unfold index
  refine yields_bind fun name => yields_bind fun _ => ?_
  split
  · exact every_singleton (.createIndex i.unique name i.columns)
  · split
    · refine yields_bind fun covering => yields_bind fun _ => yields_bind fun _ => yields_pure ?_
      exact List.forall_mem_cons.2 ⟨.createIndex true name i.columns,
        List.forall_mem_singleton.2 (.createIndex false covering _)⟩
    · exact yields_bind fun _ => every_singleton (.createIndex false name _)

theorem every_isIdentityOf (x : Schema × Table) : Every (IsIdentityOf x) (identities x) := by
  refine every_each fun column _ => ?_
  unfold identity
  cases column.identity with
  | none => exact every_nil
  | some i =>
    refine yields_bind fun _ => yields_bind fun name => yields_bind fun _ => yields_pure ?_
    simp only [List.forall_mem_cons]
    exact ⟨.createSequence name column.name (options i), .setDefault column.name name,
      .setValue column.name name, List.forall_mem_nil _⟩

/-- Foreign keys ask for no names, so nothing that was emitted before counts. -/
theorem yields_foreignKeys (x : Schema × Table) :
    Yields (· = foreignKeyItems x) (foreignKeys x) := by
  unfold foreignKeyItems
  rw [List.map_eq_flatMap]
  refine yields_each_eq fun k _ => ?_
  unfold foreignKey
  split
  · exact yields_bind fun _ => yields_bind fun _ => yields_pure rfl
  · exact yields_bind fun _ => yields_pure rfl

/-- Items that belong to some table of the catalog. -/
theorem every_table {c : Catalog} {p : Schema × Table → Item → Prop}
    {f : Schema × Table → Emit Script} (h : ∀ x, Every (p x) (f x)) :
    Every (fun item => ∃ x ∈ c.tables, p x item) (each f c.tables) :=
  every_each fun x hx e item hitem => ⟨x, hx, h x e item hitem⟩

/-- What is emitted for the time after loading. -/
structure IsScript (withTablespaces : Bool) (c : Catalog)
    (items keys indexes identities : Script) : Prop where
  layout : items = [.clientEncoding, .blank] ++ keys ++ indexes ++
    c.tables.flatMap foreignKeyItems ++ identities
  keys : ∀ item ∈ keys, ∃ x ∈ c.tables, IsKeyOf withTablespaces x item
  indexes : ∀ item ∈ indexes, ∃ x ∈ c.tables, IsIndexOf withTablespaces x item
  identities : ∀ item ∈ identities, ∃ x ∈ c.tables, IsIdentityOf x item

/-- An item of the script, told from the table that it is about. -/
inductive IsItem (withTablespaces : Bool) (c : Catalog) : Item → Prop
  | clientEncoding : IsItem withTablespaces c .clientEncoding
  | blank : IsItem withTablespaces c .blank
  | key {x : Schema × Table} {item : Item} (hx : x ∈ c.tables)
      (hitem : IsKeyOf withTablespaces x item) : IsItem withTablespaces c item
  | index {x : Schema × Table} {item : Item} (hx : x ∈ c.tables)
      (hitem : IsIndexOf withTablespaces x item) : IsItem withTablespaces c item
  | foreignKey {x : Schema × Table} (hx : x ∈ c.tables) (name : String) (k : ForeignKey) :
      IsItem withTablespaces c (.addForeignKey ⟨x.1.name, x.2.name⟩ name k)
  | identity {x : Schema × Table} {item : Item} (hx : x ∈ c.tables)
      (hitem : IsIdentityOf x item) : IsItem withTablespaces c item

theorem IsScript.isItem {c : Catalog} {items keys indexes identities : Script}
    (h : IsScript withTablespaces c items keys indexes identities) :
    ∀ item ∈ items, IsItem withTablespaces c item := by
  rw [h.layout]
  simp only [List.forall_mem_append, List.forall_mem_cons]
  refine ⟨⟨⟨⟨⟨.clientEncoding, .blank, List.forall_mem_nil _⟩, fun item hitem => ?_⟩,
    fun item hitem => ?_⟩, fun item hitem => ?_⟩, fun item hitem => ?_⟩
  · obtain ⟨x, hx, hkey⟩ := h.keys item hitem
    exact .key hx hkey
  · obtain ⟨x, hx, hindex⟩ := h.indexes item hitem
    exact .index hx hindex
  · obtain ⟨x, hx, hitem⟩ := List.mem_flatMap.1 hitem
    obtain ⟨k, -, rfl⟩ := List.mem_map.1 hitem
    exact .foreignKey hx k.2 k.1
  · obtain ⟨x, hx, hidentity⟩ := h.identities item hitem
    exact .identity hx hidentity

end After

/-- The script in its parts, with what is known of the keys and of the identities besides what kind
of items they are. -/
theorem yields_emitAfter_parts {withTablespaces : Bool} {c : Catalog} {p q : Script → Prop}
    (hp : Yields p (each (After.keys withTablespaces) c.tables))
    (hq : Yields q (each After.identities c.tables)) :
    Yields (fun items => ∃ keys indexes identities,
      After.IsScript withTablespaces c items keys indexes identities ∧ p keys ∧ q identities)
      (emitAfter withTablespaces c) := by
  have hkeys : Yields (fun items => p items ∧
      ∀ item ∈ items, ∃ x ∈ c.tables, After.IsKeyOf withTablespaces x item)
      (each (After.keys withTablespaces) c.tables) :=
    fun e => ⟨hp e, After.every_table After.every_isKeyOf e⟩
  have hidentities : Yields (fun items => q items ∧
      ∀ item ∈ items, ∃ x ∈ c.tables, After.IsIdentityOf x item)
      (each After.identities c.tables) :=
    fun e => ⟨hq e, After.every_table After.every_isIdentityOf e⟩
  refine hkeys.bind fun keys hkeys => ?_
  refine Yields.bind (After.every_table After.every_isIndexOf) fun indexes hindexes => ?_
  refine (yields_each_eq fun x _ => After.yields_foreignKeys x).bind
    fun foreignKeys hforeignKeys => ?_
  refine hidentities.bind fun identities hidentities => yields_pure ?_
  refine ⟨keys, indexes, identities, ⟨?_, hkeys.2, hindexes, hidentities.2⟩, hkeys.1,
    hidentities.1⟩
  rw [hforeignKeys]

theorem yields_emitAfter (withTablespaces : Bool) (c : Catalog) :
    Yields (fun items => ∃ keys indexes identities,
      After.IsScript withTablespaces c items keys indexes identities)
      (emitAfter withTablespaces c) := by
  intro e
  obtain ⟨keys, indexes, identities, hscript, -⟩ :=
    yields_emitAfter_parts (After.every_table After.every_isKeyOf)
      (After.every_table After.every_isIdentityOf) e
  exact ⟨keys, indexes, identities, hscript⟩

namespace Unsure

/-- An item that is copied, or that stands around what is copied. A function belongs to a schema of
the catalog. -/
inductive IsCopied (c : Catalog) : Item → Prop
  | blank : IsCopied c .blank
  | remark (text : String) : IsCopied c (.remark text)
  | unparsable (problem : String) : IsCopied c (.unparsable problem)
  | addCheck (table : TableName) (name : Option String) (condition : String) :
      IsCopied c (.addCheck table name condition)
  | searchPath (entries : List String) : IsCopied c (.searchPath entries)
  | createView (schema name body : String) : IsCopied c (.createView schema name body)
  | commentView (schema name text : String) : IsCopied c (.commentView schema name text)
  | commentColumn (table : TableName) (column text : String) :
      IsCopied c (.commentColumn table column text)
  | createFunction {s : Schema} (hs : s ∈ c.schemas.values) (name body : String) :
      IsCopied c (.createFunction s.name name body)
  | createTriggerFunction {s : Schema} (hs : s ∈ c.schemas.values) (name body : String) :
      IsCopied c (.createTriggerFunction s.name name body)
  | commentFunction (schema name text : String) : IsCopied c (.commentFunction schema name text)

/-- An item that is copied behind the views. -/
inductive IsBehindViews (c : Catalog) : Item → Prop
  | blank : IsBehindViews c .blank
  | remark {text : String} (htext : begins "-- " text = true) : IsBehindViews c (.remark text)
  | commentView (schema name text : String) : IsBehindViews c (.commentView schema name text)
  | commentColumn (table : TableName) (column text : String) :
      IsBehindViews c (.commentColumn table column text)
  | createFunction {s : Schema} (hs : s ∈ c.schemas.values) (name body : String) :
      IsBehindViews c (.createFunction s.name name body)
  | createTriggerFunction {s : Schema} (hs : s ∈ c.schemas.values) (name body : String) :
      IsBehindViews c (.createTriggerFunction s.name name body)
  | commentFunction (schema name text : String) :
      IsBehindViews c (.commentFunction schema name text)

variable {c : Catalog}

theorem IsBehindViews.isCopied {item : Item} (h : IsBehindViews c item) : IsCopied c item := by
  cases h with
  | blank => exact .blank
  | remark htext => exact .remark _
  | commentView schema name text => exact .commentView schema name text
  | commentColumn table column text => exact .commentColumn table column text
  | createFunction hs name body => exact .createFunction hs name body
  | createTriggerFunction hs name body => exact .createTriggerFunction hs name body
  | commentFunction schema name text => exact .commentFunction schema name text

theorem every_isCopied_checks (x : Schema × Table) : Every (IsCopied c) (checks x) :=
  every_each fun _ _ => yields_bind fun _ => every_checked (.addCheck _ _ _) .unparsable

theorem every_isCopied_view (v : View) : Every (IsCopied c) (view v) := by
  refine yields_bind fun _ =>
    Every.bind (every_checked (.createView _ _ _) .unparsable) fun items hitems => ?_
  exact yields_pure (List.forall_mem_cons.2 ⟨.searchPath _, hitems⟩)

theorem isBehindViews_viewComments (s : Schema) :
    ∀ item ∈ viewComments s, IsBehindViews c item := by
  intro item hitem
  cases isViewComment_of_mem item hitem with
  | commentView name text => exact .commentView s.name name text
  | commentColumn name column text => exact .commentColumn ⟨s.name, name⟩ column text

theorem every_isBehindViews_function {s : Schema} (hs : s ∈ c.schemas.values) (f : Routine) :
    Every (IsBehindViews c) (function s f) :=
  yields_bind fun _ => every_singleton (.createFunction hs _ _)

theorem every_isBehindViews_trigger {s : Schema} (hs : s ∈ c.schemas.values)
    (entry : String × Trigger) : Every (IsBehindViews c) (trigger s entry) := by
  refine yields_bind fun _ => yields_pure ?_
  simp only [List.cons_append, List.forall_mem_cons, List.forall_mem_append]
  refine ⟨.createTriggerFunction hs _ _, fun item hitem => ?_, .remark (by decide), .blank,
    List.forall_mem_nil _⟩
  obtain ⟨text, -, rfl⟩ := Option.map_eq_some_iff.1 (Option.mem_toList.1 hitem)
  exact .commentFunction _ _ _

/-- What is emitted to be copied, part by part. -/
structure IsScript (c : Catalog) (items checks views rest : Script) : Prop where
  layout : items =
    preamble ++ c.tables.flatMap validations ++ checks ++ [.blank] ++ views ++ rest
  rest : ∀ item ∈ rest, IsBehindViews c item

end Unsure

/-- The script in its parts, with what is known of the check constraints and of the views. -/
theorem yields_emitUnsure_parts {c : Catalog} {p q : Script → Prop}
    (hchecks : Yields p (each Unsure.checks c.tables))
    (hviews : Yields q (each Unsure.view c.views)) :
    Yields (fun items => ∃ checks views rest,
      Unsure.IsScript c items checks views rest ∧ p checks ∧ q views) (emitUnsure c) := by
  refine hchecks.bind fun checks hchecks => hviews.bind fun views hviews => ?_
  refine Yields.bind
    (every_each fun s hs => every_each fun f _ => Unsure.every_isBehindViews_function hs f)
    fun functions hfunctions => ?_
  refine Yields.bind
    (every_each fun s hs => every_each fun entry _ => Unsure.every_isBehindViews_trigger hs entry)
    fun triggers htriggers => yields_pure ?_
  refine ⟨checks, views, c.schemas.values.flatMap Unsure.viewComments ++
    [.blank] ++ [.remark (Unsure.banner "functions")] ++ functions ++ [.blank] ++
    [.remark (Unsure.banner "triggers")] ++ triggers,
    ⟨by simp only [List.append_assoc], ?_⟩, hchecks, hviews⟩
  have hcomments : ∀ item ∈ c.schemas.values.flatMap Unsure.viewComments,
      Unsure.IsBehindViews c item :=
    List.forall_mem_flatMap.2 fun s _ => Unsure.isBehindViews_viewComments s
  simp only [List.forall_mem_append, List.forall_mem_singleton]
  exact ⟨⟨⟨⟨⟨⟨hcomments, .blank⟩, .remark (by decide +kernel)⟩, hfunctions⟩, .blank⟩,
    .remark (by decide +kernel)⟩, htriggers⟩

namespace Unsure

/-- A choice of items that takes nothing from the script but check constraints. -/
structure PicksChecks {β : Type} (c : Catalog) (pick : Item → Option β) : Prop where
  preamble : preamble.filterMap pick = []
  validate : ∀ table name, pick (.validate table name) = none
  unparsable : ∀ problem, pick (.unparsable problem) = none
  searchPath : ∀ entries, pick (.searchPath entries) = none
  createView : ∀ schema name body, pick (.createView schema name body) = none
  behind : ∀ item, IsBehindViews c item → pick item = none

variable {β : Type} {pick : Item → Option β}

theorem PicksChecks.yields_checks (h : PicksChecks c pick) (x : Schema × Table) :
    Yields (·.filterMap pick = x.2.checks.filterMap fun k =>
      pick (.addCheck ⟨x.1.name, x.2.name⟩ (given k.name) (enclosed k.condition))) (checks x) := by
  rw [List.filterMap_eq_flatMap_toList]
  refine yields_each_filterMap fun k _ => yields_bind fun _ e => ?_
  rcases yields_checked _ _ _ e with hitems | ⟨problem, hitems⟩
  · rw [hitems, List.filterMap_cons, List.filterMap_nil]
    cases pick (.addCheck ⟨x.1.name, x.2.name⟩ (given k.name) (enclosed k.condition)) <;> rfl
  · rw [hitems, List.filterMap_cons, h.unparsable, List.filterMap_cons, List.filterMap_nil]
    cases pick (.addCheck ⟨x.1.name, x.2.name⟩ (given k.name) (enclosed k.condition)) <;> rfl

theorem PicksChecks.every_view (h : PicksChecks c pick) (v : View) :
    Every (pick · = none) (view v) := by
  refine yields_bind fun _ =>
    Every.bind (every_checked (h.createView _ _ _) h.unparsable) fun items hitems => ?_
  exact yields_pure (List.forall_mem_cons.2 ⟨h.searchPath _, hitems⟩)

end Unsure

/-- What is picked out of the script, if check constraints alone are picked. -/
theorem Unsure.PicksChecks.yields_emitUnsure {β : Type} {c : Catalog} {pick : Item → Option β}
    (h : PicksChecks c pick) :
    Yields (·.filterMap pick = c.tables.flatMap fun x => x.2.checks.filterMap fun k =>
      pick (.addCheck ⟨x.1.name, x.2.name⟩ (given k.name) (enclosed k.condition)))
      (emitUnsure c) := by
  intro e
  obtain ⟨checks, views, rest, hscript, hchecks, hviews⟩ := yields_emitUnsure_parts
    (yields_each_filterMap fun x _ => h.yields_checks x) (every_each fun v _ => h.every_view v) e
  have hvalidations : (c.tables.flatMap validations).filterMap pick = [] := by
    refine List.filterMap_eq_nil_iff.2 (List.forall_mem_flatMap.2 fun x _ item hitem => ?_)
    obtain ⟨k, -, rfl⟩ := List.mem_map.1 hitem
    exact h.validate _ _
  have hblank : [Item.blank].filterMap pick = [] :=
    List.filterMap_eq_nil_iff.2 (List.forall_mem_singleton.2 (h.behind _ .blank))
  have hbehind : rest.filterMap pick = [] :=
    List.filterMap_eq_nil_iff.2 fun item hitem => h.behind item (hscript.rest item hitem)
  rw [hscript.layout]
  simp only [List.filterMap_append, h.preamble, hvalidations, hblank, hbehind, hchecks,
    List.filterMap_eq_nil_iff.2 hviews, List.append_nil, List.nil_append]

/-- The validations stand ahead of what is copied. -/
theorem yields_emitUnsure (c : Catalog) :
    Yields (fun items => ∃ rest, items = Unsure.preamble ++ c.tables.flatMap Unsure.validations ++
      rest ∧ ∀ item ∈ rest, Unsure.IsCopied c item) (emitUnsure c) := by
  intro e
  obtain ⟨checks, views, rest, hscript, hchecks, hviews⟩ := yields_emitUnsure_parts
    (every_each fun x _ => Unsure.every_isCopied_checks (c := c) x)
    (every_each fun v _ => Unsure.every_isCopied_view (c := c) v) e
  refine ⟨checks ++ [.blank] ++ views ++ rest,
    by rw [hscript.layout]; simp only [List.append_assoc], ?_⟩
  simp only [List.forall_mem_append, List.forall_mem_singleton]
  exact ⟨⟨⟨hchecks, .blank⟩, hviews⟩, fun item hitem => (hscript.rest item hitem).isCopied⟩

end SchemaTransfer
