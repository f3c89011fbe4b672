import SchemaTransfer.Catalog.Basic
import SchemaTransfer.Proofs.Keyed

/-!
# Objects of a catalog

A catalog is known by the names of its schemas and by what it holds of each object. Putting
something in for one object mentions the object's schema and leaves what is held of all other
objects as it is. So what two statements do can be compared object by object.
-/
namespace SchemaTransfer

/-- What is kept under the name of a table, or of a view that comments are kept for. -/
@[ext] structure Relation where
  table : Option Table := none
  comment : Option String := none
  columnComments : Option (Keyed String) := none

/-- The parts of a schema. -/
inductive SchemaPart
  | owner
  | sequence (name : String)
  | domain (name : String)
  | relation (name : String)
  | trigger (name : String)
  /-- All functions, since each is kept under a key that the others leave free. -/
  | routines
  deriving DecidableEq

/-- What a statement can be about. -/
inductive Object
  | role (name : String)
  | tablespace (name : String)
  | part (schema : String) (part : SchemaPart)
  /-- All views, since their order counts. -/
  | views
  deriving DecidableEq

/-- Puts an entry in if there is one. -/
def Keyed.insert? {α : Type} (t : Keyed α) (k : String) : Option α → Keyed α
  | none => t
  | some a => t.insert k a

theorem Keyed.get?_insert?_self {α : Type} (t : Keyed α) (k : String) (a : Option α) :
    (t.insert? k a).get? k = a.or (t.get? k) := by
  cases a with
  | none => rfl
  | some a => exact t.get?_insert_self k a

theorem Keyed.get?_insert?_of_ne {α : Type} (t : Keyed α) {k l : String} (a : Option α)
    (h : k ≠ l) : (t.insert? k a).get? l = t.get? l := by
  cases a with
  | none => rfl
  | some a => exact t.get?_insert_of_ne a h

namespace SchemaPart

def Content : SchemaPart → Type
  | owner => Option String
  | sequence _ => Option Sequence
  | domain _ => Option Domain
  | relation _ => Relation
  | trigger _ => Option Trigger
  | routines => Keyed Routine

def get (s : Schema) : (p : SchemaPart) → p.Content
  | owner => s.authorization
  | sequence name => s.sequences.get? name
  | domain name => s.domains.get? name
  | relation name =>
    ⟨s.tables.get? name, s.viewComments.get? name, s.viewColumnComments.get? name⟩
  | trigger name => s.triggers.get? name
  | routines => s.routines

/-- Puts something in for a part. What is missing is left as it is. -/
def put (s : Schema) : (p : SchemaPart) → p.Content → Schema
  | owner, o => { s with authorization := Option.or o s.authorization }
  | sequence name, q => { s with sequences := s.sequences.insert? name q }
  | domain name, d => { s with domains := s.domains.insert? name d }
  | relation name, r =>
    { s with
      tables := s.tables.insert? name r.table
      viewComments := s.viewComments.insert? name r.comment
      viewColumnComments := s.viewColumnComments.insert? name r.columnComments }
  | trigger name, t => { s with triggers := s.triggers.insert? name t }
  | routines, rs => { s with routines := rs }

/-- What is held of a part after `new` was put in for it. -/
def update : (p : SchemaPart) → (new old : p.Content) → p.Content
  | owner, new, old => Option.or new old
  | sequence _, new, old => Option.or new old
  | domain _, new, old => Option.or new old
  | relation _, new, old =>
    ⟨new.table.or old.table, new.comment.or old.comment, new.columnComments.or old.columnComments⟩
  | trigger _, new, old => Option.or new old
  | routines, new, _ => new

theorem get_put_self (s : Schema) (p : SchemaPart) (v : p.Content) :
    p.get (p.put s v) = p.update v (p.get s) := by
  cases p with
  | owner => rfl
  | sequence name => exact Keyed.get?_insert?_self _ _ _
  | domain name => exact Keyed.get?_insert?_self _ _ _
  | relation name =>
    exact Relation.ext (Keyed.get?_insert?_self _ _ _) (Keyed.get?_insert?_self _ _ _)
      (Keyed.get?_insert?_self _ _ _)
  | trigger name => exact Keyed.get?_insert?_self _ _ _
  | routines => rfl

theorem get_put_of_ne (s : Schema) {p q : SchemaPart} (v : p.Content) (h : p ≠ q) :
    get (put s p v) q = get s q := by
  cases p with
  | owner => cases q <;> first | rfl | exact absurd rfl h
  | sequence name =>
    cases q with
    | sequence other => exact Keyed.get?_insert?_of_ne _ _ fun hname => h (by rw [hname])
    | _ => rfl
  | domain name =>
    cases q with
    | domain other => exact Keyed.get?_insert?_of_ne _ _ fun hname => h (by rw [hname])
    | _ => rfl
  | relation name =>
    cases q with
    | relation other =>
      have hname : name ≠ other := fun hname => h (by rw [hname])
      exact Relation.ext (Keyed.get?_insert?_of_ne _ _ hname) (Keyed.get?_insert?_of_ne _ _ hname)
        (Keyed.get?_insert?_of_ne _ _ hname)
    | _ => rfl
  | trigger name =>
    cases q with
    | trigger other => exact Keyed.get?_insert?_of_ne _ _ fun hname => h (by rw [hname])
    | _ => rfl
  | routines => cases q <;> first | rfl | exact absurd rfl h

theorem put_name (s : Schema) (p : SchemaPart) (v : p.Content) : (put s p v).name = s.name := by
  cases p <;> rfl

/-- A schema is its name and its parts. -/
theorem schema_ext {s t : Schema} (hname : s.name = t.name)
    (h : ∀ p : SchemaPart, p.get s = p.get t) : s = t := by
  have howner : s.authorization = t.authorization := h .owner
  have hsequences : s.sequences = t.sequences := Keyed.ext_get? fun k => h (.sequence k)
  have hdomains : s.domains = t.domains := Keyed.ext_get? fun k => h (.domain k)
  have htables : s.tables = t.tables :=
    Keyed.ext_get? fun k => congrArg Relation.table (h (.relation k))
  have htriggers : s.triggers = t.triggers := Keyed.ext_get? fun k => h (.trigger k)
  have hroutines : s.routines = t.routines := h .routines
  have hcomments : s.viewComments = t.viewComments :=
    Keyed.ext_get? fun k => congrArg Relation.comment (h (.relation k))
  have hcolumnComments : s.viewColumnComments = t.viewColumnComments :=
    Keyed.ext_get? fun k => congrArg Relation.columnComments (h (.relation k))
  cases s
  cases t
  simp_all

end SchemaPart

namespace Object

/-- A table, or a view that comments are kept for. -/
abbrev relation (schema name : String) : Object := part schema (.relation name)

def Content : Object → Type
  | role _ => Option Role
  | tablespace _ => Option Tablespace
  | part _ p => p.Content
  | views => List View

/-- The schema that an object belongs to. -/
def schemas : Object → List String
  | part schema _ => [schema]
  | _ => []

/-- What is held of an object after `new` was put in for it. -/
def update : (x : Object) → (new old : x.Content) → x.Content
  | role _, new, old => Option.or new old
  | tablespace _, new, old => Option.or new old
  | part _ p, new, old => p.update new old
  | views, new, _ => new

end Object

namespace Catalog

variable {c d : Catalog}

/-- What a catalog holds of an object. -/
def content (c : Catalog) : (x : Object) → x.Content
  | .role name => c.roles.get? name
  | .tablespace name => c.tablespaces.get? name
  | .part schema p => p.get (c.schema schema)
  | .views => c.views

/-- Puts something in for an object, whose schema exists from then on. -/
def put (c : Catalog) : (x : Object) → x.Content → Catalog
  | .role name, r => { c with roles := c.roles.insert? name r }
  | .tablespace name, t => { c with tablespaces := c.tablespaces.insert? name t }
  | .part schema p, v => c.modifySchema schema (p.put · v)
  | .views, vs => { c with views := vs }

/-- The name of a schema that was mentioned. -/
def schemaName? (c : Catalog) (schema : String) : Option String :=
  (c.schemas.get? schema).map (·.name)

theorem schema_modifySchema (c : Catalog) (schema other : String) (f : Schema → Schema) :
    (c.modifySchema schema f).schema other =
      if schema = other then f (c.schema schema) else c.schema other := by
  unfold modifySchema
  rw [Catalog.schema, Keyed.get?_insert]
  split
  · next h => rw [Option.getD_some]
  · rfl

theorem schemaName?_modifySchema {f : Schema → Schema} {schema : String}
    (h : (f (c.schema schema)).name = (c.schema schema).name) (other : String) :
    (c.modifySchema schema f).schemaName? other =
      if other = schema then some ((c.schemaName? other).getD other) else c.schemaName? other := by
  unfold schemaName? modifySchema
  rw [Keyed.get?_insert]
  by_cases hs : schema = other
  · subst hs
    rw [if_pos rfl, if_pos rfl, Option.map_some, h, Catalog.schema]
    cases c.schemas.get? schema <;> rfl
  · rw [if_neg hs, if_neg (Ne.symm hs)]

theorem content_put_self (c : Catalog) (x : Object) (v : x.Content) :
    (c.put x v).content x = x.update v (c.content x) := by
  cases x with
  | role name => exact Keyed.get?_insert?_self _ _ _
  | tablespace name => exact Keyed.get?_insert?_self _ _ _
  | part schema p =>
    show p.get ((c.modifySchema schema (p.put · v)).schema schema) = _
    rw [schema_modifySchema, if_pos rfl]
    exact p.get_put_self _ v
  | views => rfl

theorem content_put_of_ne (c : Catalog) {x y : Object} (v : x.Content) (h : x ≠ y) :
    (c.put x v).content y = c.content y := by
  cases x with
  | role name =>
    cases y with
    | role other => exact Keyed.get?_insert?_of_ne _ _ fun hname => h (by rw [hname])
    | _ => rfl
  | tablespace name =>
    cases y with
    | tablespace other => exact Keyed.get?_insert?_of_ne _ _ fun hname => h (by rw [hname])
    | _ => rfl
  | part schema p =>
    cases y with
    | part other q =>
      show q.get ((c.modifySchema schema (p.put · v)).schema other) = q.get (c.schema other)
      rw [schema_modifySchema]
      split
      · next hs =>
        subst hs
        exact SchemaPart.get_put_of_ne _ v fun hp => h (by rw [hp])
      · rfl
    | _ => rfl
  | views => cases y <;> first | rfl | exact absurd rfl h

theorem schemaName?_put (c : Catalog) (x : Object) (v : x.Content) (schema : String) :
    (c.put x v).schemaName? schema =
      if schema ∈ x.schemas then some ((c.schemaName? schema).getD schema)
      else c.schemaName? schema := by
  cases x with
  | part other p =>
    simp only [Object.schemas, List.mem_singleton]
    exact schemaName?_modifySchema (p.put_name _ v) schema
  | _ => rfl

/-- A catalog is the names of its schemas and what it holds of each object. -/
theorem ext_content (hnames : ∀ schema, c.schemaName? schema = d.schemaName? schema)
    (h : ∀ x, c.content x = d.content x) : c = d := by
  have hschemas : c.schemas = d.schemas := by
    refine Keyed.ext_get? fun k => ?_
    have hname := hnames k
    have hpart (p : SchemaPart) : p.get (c.schema k) = p.get (d.schema k) := h (.part k p)
    unfold schemaName? at hname
    unfold Catalog.schema at hpart
    cases hc : c.schemas.get? k with
    | none =>
      rw [hc, Option.map_none, eq_comm, Option.map_eq_none_iff] at hname
      exact hname.symm
    | some s =>
      rw [hc, Option.map_some, eq_comm, Option.map_eq_some_iff] at hname
      obtain ⟨t, ht, hst⟩ := hname
      rw [hc, ht, Option.getD_some, Option.getD_some] at hpart
      rw [ht, SchemaPart.schema_ext hst.symm hpart]
  have hroles : c.roles = d.roles := Keyed.ext_get? fun k => h (.role k)
  have htablespaces : c.tablespaces = d.tablespaces := Keyed.ext_get? fun k => h (.tablespace k)
  have hviews : c.views = d.views := h .views
  cases c
  cases d
  simp_all

theorem table?_eq (c : Catalog) (schema name : String) :
    c.table? schema name = (c.schema schema).tables.get? name := by
  unfold table? Catalog.schema
  cases c.schemas.get? schema <;> rfl

theorem table?_eq_content (c : Catalog) (schema name : String) :
    c.table? schema name = (c.content (.relation schema name)).table :=
  c.table?_eq schema name

/-- What is put in twice counts as it was put in last, unless the last leaves something out. -/
theorem put_put (c : Catalog) {x : Object} {v w : x.Content}
    (h : ∀ old, x.update w (x.update v old) = x.update w old) :
    (c.put x v).put x w = c.put x w := by
  refine ext_content (fun schema => ?_) fun y => ?_
  · simp only [schemaName?_put]
    split <;> rfl
  · by_cases hy : x = y
    · subst hy
      rw [content_put_self, content_put_self, content_put_self, h]
    · rw [content_put_of_ne _ w hy, content_put_of_ne _ v hy, content_put_of_ne _ w hy]

theorem table?_insertTable (c : Catalog) (schema name : String) (t : Table) :
    (c.insertTable schema name t).table? schema name = some t := by
  rw [table?_eq_content]
  exact congrArg Relation.table
    (c.content_put_self (.relation schema name) ({ table := some t } : Relation))

theorem insertTable_insertTable (c : Catalog) (schema name : String) (t u : Table) :
    (c.insertTable schema name t).insertTable schema name u = c.insertTable schema name u :=
  put_put (x := .relation schema name) (v := ({ table := some t } : Relation))
    (w := ({ table := some u } : Relation)) c fun _ => rfl

end Catalog

end SchemaTransfer
