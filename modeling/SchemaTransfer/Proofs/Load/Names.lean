import SchemaTransfer.Proofs.Catalog.Names
import SchemaTransfer.Proofs.Load.WellKept

/-!
# Where the names in a catalog come from

A statement puts names into the catalog that stand on its first line, that it meets on its further
lines and tells of, or that are the current schema. This is so whether it fails or not.
-/
namespace SchemaTransfer.Load
open Unicode Dump

variable {P : String → Prop}

/-- The names on a first line as the database stores them. -/
def storedNames : Form → List String
  | .createView schema name _ => name.name :: (schema.map NameToken.name).toList
  | .createTrigger schema name _ => name.name :: (schema.map NameToken.name).toList
  | .createFunction schema name _ => name.name :: (schema.map NameToken.name).toList
  | form => form.names

/-- All names that are told of have a property. -/
def Told (P : String → Prop) (events : List Event) : Prop := ∀ n, .name n ∈ events → P n

namespace TableBody

variable {shown : String} {number : Nat} {b : TableBody}

theorem addColumn_allNames (hb : b.table.AllNames P) {k : ColumnLine}
    (h : Told P (addColumn shown b k).2.1) : (addColumn shown b k).1.table.AllNames P := by
  unfold addColumn at h ⊢
  split
  · exact hb
  · split
    · exact hb
    · next hfault _ type notices hconvert =>
      rw [hfault, hconvert] at h
      exact hb.addColumn (h k.name List.mem_cons_self)

theorem closeIdentity_allNames {t : Table} (ht : t.AllNames P) (identity : Identity) :
    (closeIdentity t identity).AllNames P := by
  unfold closeIdentity
  split
  · next k hk =>
    have hcolumns : t.columns.dropLast ++ [k] = t.columns :=
      List.dropLast_append_getLast? k (Option.mem_def.2 hk)
    refine ht.ofColumns ?_
    conv_rhs => rw [← hcolumns]
    rw [List.map_append, List.map_append]
    rfl
  · exact ht

theorem identityLine_allNames (hb : b.table.AllNames P) (identity : Identity) (line : List Char) :
    (identityLine shown b identity line).1.table.AllNames P := by
  unfold identityLine
  split
  · exact hb
  · split
    · exact hb
    · exact hb
    · exact closeIdentity_allNames hb _

theorem storageLine_allNames (hb : b.table.AllNames P) (line : List Char) :
    (storageLine shown number b line).1.table.AllNames P := by
  unfold storageLine
  split
  · exact { hb with }
  · exact hb

theorem step_allNames (hb : b.table.AllNames P) {line : List Char}
    (h : Told P (step shown number b line).2.1) :
    (step shown number b line).1.table.AllNames P := by
  unfold step at h ⊢
  split
  · exact identityLine_allNames hb _ line
  · exact storageLine_allNames hb line
  · next hpart =>
    split
    · next k hk =>
      rw [hpart, hk] at h
      exact addColumn_allNames hb h
    · split
      · exact hb
      · exact storageLine_allNames hb line

theorem read_allNames (hb : b.table.AllNames P) {lines : List (List Char)}
    (h : Told P (read shown number b lines).events) :
    (read shown number b lines).value.table.AllNames P := by
  induction lines generalizing b with
  | nil =>
    rw [read]
    split <;> exact hb
  | cons line rest ih =>
    rw [read] at h ⊢
    have hstep : Told P (step shown number b line).2.1 →
        (step shown number b line).1.table.AllNames P := step_allNames hb
    cases hcases : step shown number b line with
    | mk b' result =>
      obtain ⟨events, failure⟩ := result
      rw [hcases] at h hstep
      cases failure with
      | none =>
        have hb' := hstep fun n hn => h n (List.mem_append_left _ hn)
        exact ih hb' fun n hn => h n (List.mem_append_right _ hn)
      | some failure => exact hstep h

end TableBody

theorem key_name {context : String} {number : Nat} {name : Option String}
    {lines : List (List Char)} {k : Key} (h : AlterBody.key context number name lines = .ok k) :
    k.name = name := by
  rw [key_eq] at h
  obtain ⟨r, -, h⟩ := bind_eq_ok h
  unfold keyFrom at h
  split at h
  · cases h
    rfl
  · cases h

theorem trailers_name {context : String} {k k' : ForeignKey} {lines : List (List Char)}
    (h : ForeignKeyBody.trailers context k lines = .ok k') : k'.name = k.name := by
  induction lines generalizing k with
  | nil =>
    cases h
    rfl
  | cons line rest ih =>
    rw [ForeignKeyBody.trailers] at h
    split at h
    · next trailer _ =>
      rw [ih h]
      cases trailer <;> rfl
    · cases h

theorem foreignKey_name {context : String} {name : Option String} {lines : List (List Char)}
    {k : ForeignKey} (h : ForeignKeyBody.read context name lines = .ok k) : k.name = name := by
  rw [foreignKey_read_eq] at h
  obtain ⟨columns, -, h⟩ := bind_eq_ok h
  unfold referencesFrom at h
  split at h
  · cases h
  · obtain ⟨refColumns, -, h⟩ := bind_eq_ok h
    exact trailers_name h

theorem check_name {context : String} {name : Option String} {lines : List (List Char)}
    {k : Check} (h : CheckBody.read context name lines = .ok k) : k.name = name := by
  rw [check_read_eq] at h
  unfold checkFrom at h
  split at h
  · cases h
  · split at h
    · cases h
    · cases h
      rfl

theorem extend_allNames {context : String} {number : Nat} {t t' : Table} {addition : Addition}
    {lines : List (List Char)} (ht : t.AllNames P)
    (hname : ∀ n, AlterBody.constraintName addition = some n → P n)
    (h : AlterBody.extend context number t addition lines = .ok t') : t'.AllNames P := by
  cases addition with
  | primaryKey name =>
    obtain ⟨k, hk, rfl⟩ := map_eq_ok h
    exact ht.setPrimaryKey fun n hn => hname n ((key_name hk).symm.trans hn)
  | unique name =>
    obtain ⟨k, hk, rfl⟩ := map_eq_ok h
    exact ht.addConstraint fun n hn => hname n ((key_name hk).symm.trans hn)
  | foreignKey name =>
    obtain ⟨k, hk, rfl⟩ := map_eq_ok h
    exact ht.addConstraint fun n hn => hname n ((foreignKey_name hk).symm.trans hn)
  | check name =>
    obtain ⟨k, hk, rfl⟩ := map_eq_ok h
    exact ht.addConstraint fun n hn => hname n ((check_name hk).symm.trans hn)

theorem alter_allNames {context : String} {number : Nat} {t : Table} (ht : t.AllNames P)
    {lines : List (List Char)} (h : Told P (AlterBody.read context number t lines).events) :
    (AlterBody.read context number t lines).value.AllNames P := by
  unfold AlterBody.read at h ⊢
  split
  · exact ht
  · next line rest =>
    split
    · exact ht
    · next addition haddition =>
      dsimp only at h
      rw [haddition] at h
      cases hextend : AlterBody.extend context number t addition rest with
      | error failure => exact ht
      | ok t' =>
        refine extend_allNames ht (fun n hn => h n (List.mem_append_left _ ?_)) hextend
        rw [nameEvents, hn]
        exact List.mem_singleton_self _

section

variable {c : Catalog}

theorem schemaOr_of {current : String} {schema : Option NameToken} (hcurrent : P current)
    (hschema : ∀ token, schema = some token → P token.name) : P (schemaOr schema current) := by
  unfold schemaOr
  split
  · next token =>
    split
    · exact hcurrent
    · exact hschema token rfl
  · exact hcurrent

theorem createSchema_allNames (h : c.AllNames P) {name : String} (hname : P name)
    {owner : Option String} (howner : ∀ n, owner = some n → P n) (number : Nat)
    (lines : List (List Char)) : (createSchema c name owner number lines).value.AllNames P := by
  have hs := h.schema hname
  unfold createSchema
  dsimp only
  rw [expectEnd_value]
  split
  · exact h.mentionSchema hname
  · next owner =>
    split
    · exact h.mentionSchema hname
    · have hmodified : (c.modifySchema name fun s =>
          { s with authorization := some owner }).AllNames P := h.modifySchema { hs with }
      exact hmodified.mentionRole (howner owner rfl)

theorem commentRole_allNames (h : c.AllNames P) (name : String) (text : List Char) (number : Nat)
    (lines : List (List Char)) : (commentRole c name text number lines).value.AllNames P := by
  unfold commentRole
  split
  · exact h
  · next role hrole =>
    have hname : P role.name := h.roles.of_get? hrole
    exact { h with roles := h.roles.insert hname }

theorem createSequence_allNames (h : c.AllNames P) {schema name : String} (hschema : P schema)
    (hname : P name) (lines : List (List Char)) :
    (createSequence c schema name lines).value.AllNames P := by
  have hs := h.schema hschema
  unfold createSequence Reading.map
  dsimp only
  refine h.modifySchema ?_
  refine { hs with sequences := hs.sequences.insert ?_ }
  rw [sequence_name]
  exact hs.sequences.getD hname

theorem restartSequence_allNames (h : c.AllNames P) {schema : String} (hschema : P schema)
    (name : String) (value : List Char) (number : Nat) (lines : List (List Char)) :
    (restartSequence c schema name value number lines).value.AllNames P := by
  have hs := h.schema hschema
  unfold restartSequence
  split
  · exact h.mentionSchema hschema
  · next q hq =>
    split
    · exact h.mentionSchema hschema
    · rw [expectEnd_value]
      have hname : P q.name := hs.sequences.of_get? hq
      refine h.modifySchema ?_
      exact { hs with sequences := hs.sequences.insert hname }

theorem createTable_allNames (h : c.AllNames P) {schema name : String} (hschema : P schema)
    (hname : P name) {number : Nat} {lines : List (List Char)}
    (htold : Told P (createTable c schema name number lines).events) :
    (createTable c schema name number lines).value.AllNames P :=
  h.insertTable hschema
    (TableBody.read_allNames (b := { table := { name } }) (Table.allNames_empty hname) htold) name

theorem alterTable_allNames (h : c.AllNames P) {schema : String} (hschema : P schema)
    {name : String} {number : Nat} {lines : List (List Char)}
    (htold : Told P (alterTable c schema name number lines).events) :
    (alterTable c schema name number lines).value.AllNames P := by
  unfold alterTable at htold ⊢
  cases ht : c.table? schema name with
  | none => exact h
  | some t =>
    rw [ht] at htold
    dsimp only at htold ⊢
    split
    · exact h.insertTable hschema (alter_allNames (h.table ht) htold) name
    · exact h

theorem restartIdentity_allNames (h : c.AllNames P) {schema : String} (hschema : P schema)
    (owner column : String) (value : List Char) (number : Nat) (lines : List (List Char)) :
    (restartIdentity c schema owner column value number lines).value.AllNames P := by
  unfold restartIdentity
  split
  · exact h
  · next t ht =>
    split
    · exact h
    · split
      · exact h
      · dsimp only
        rw [expectEnd_value]
        refine h.insertTable hschema ?_ owner
        exact (h.table ht).modifyColumn column fun _ => rfl

theorem createIndex_allNames (h : c.AllNames P) {schema name : String} (hschema : P schema)
    (hname : P name) (unique : Bool) (indexSchema owner : String) (number : Nat)
    (lines : List (List Char)) :
    (createIndex c unique indexSchema name schema owner number lines).value.AllNames P := by
  unfold createIndex
  split
  · exact h
  · next t ht =>
    dsimp only
    cases hindex : IndexBody.read ("CREATE INDEX " ++ TableBody.display indexSchema name) unique
        indexSchema name lines with
    | error failure => exact h
    | ok index =>
      have hnames := h.table ht
      have hkey : P index.name := (index_wellKept hindex).name.symm ▸ hname
      refine h.insertTable hschema ?_ owner
      exact { hnames with indexes := hnames.indexes.insert hkey }

theorem commentColumn_allNames (h : c.AllNames P) {schema : String} (hschema : P schema)
    (owner column : String) (text : List Char) (number : Nat) (lines : List (List Char)) :
    (commentColumn c schema owner column text number lines).value.AllNames P := by
  unfold commentColumn Reading.done
  dsimp only
  split
  · dsimp only
    refine h.modifySchema ?_
    exact { h.schema hschema with }
  · next t ht =>
    split
    · exact h
    · refine h.insertTable hschema ?_ owner
      exact (h.table ht).modifyColumn column fun _ => rfl

theorem commentTable_allNames (h : c.AllNames P) {schema : String} (hschema : P schema)
    (name : String) (text : List Char) (lines : List (List Char)) :
    (commentTable c schema name text lines).value.AllNames P := by
  unfold commentTable Reading.done
  dsimp only
  split
  · dsimp only
    refine h.modifySchema ?_
    exact { h.schema hschema with }
  · next t ht =>
    refine h.insertTable hschema ?_ name
    exact { h.table ht with }

theorem createDomain_allNames (h : c.AllNames P) {schema name : String} (hschema : P schema)
    (hname : P name) (base : List Char) (number : Nat) (lines : List (List Char)) :
    (createDomain c schema name base number lines).value.AllNames P := by
  have hs := h.schema hschema
  unfold createDomain
  split
  · exact h.mentionSchema hschema
  · rw [Reading.after, expectEnd_value]
    refine h.modifySchema ?_
    exact { hs with domains := hs.domains.insert hname }

theorem createTrigger_allNames (h : c.AllNames P) {context : Context} {schema : Option NameToken}
    (hschema : P (schemaOr schema context.schema)) {name : NameToken} (hname : P name.name)
    (first : List Char) (lines : List (List Char)) :
    (createTrigger c context schema name first lines).value.AllNames P := by
  have hs := h.schema hschema
  unfold createTrigger Reading.done
  dsimp only
  refine h.modifySchema ?_
  exact { hs with triggers := hs.triggers.insert hname }

theorem commentTrigger_allNames (h : c.AllNames P) {schema : String} (hschema : P schema)
    (name : String) (text : List Char) (number : Nat) (lines : List (List Char)) :
    (commentTrigger c schema name text number lines).value.AllNames P := by
  have hs := h.schema hschema
  unfold commentTrigger Reading.done
  split
  · exact h.mentionSchema hschema
  · next t ht =>
    dsimp only
    have hname : P t.name := hs.triggers.of_get? ht
    refine h.modifySchema ?_
    exact { hs with triggers := hs.triggers.insert hname }

theorem createFunction_allNames (h : c.AllNames P) {context : Context} {schema : Option NameToken}
    (hschema : P (schemaOr schema context.schema)) {name : NameToken} (hname : P name.name)
    (first : List Char) (lines : List (List Char)) :
    (createFunction c context schema name first lines).value.AllNames P := by
  have hs := h.schema hschema
  unfold createFunction Reading.after Reading.done
  dsimp only
  refine h.modifySchema ?_
  exact { hs with routines := hs.routines.insert hname }

theorem createView_allNames (h : c.AllNames P) (context : Context) (schema : Option NameToken)
    {name : NameToken} (hname : P name.name) (first : List Char) (lines : List (List Char)) :
    (createView c context schema name first lines).value.AllNames P := by
  refine { h with views := fun v hv => ?_ }
  rcases List.mem_append.1 hv with hv | hv
  · exact h.views v hv
  · rw [List.mem_singleton.1 hv]
    exact hname

/-- One case for each form. The names of a form are taken in the order in which it holds them. -/
theorem perform_allNames (h : c.AllNames P) {context : Context} (hcurrent : P context.schema)
    {s : Statement} {form : Form} (hform : ∀ n ∈ storedNames form, P n)
    (htold : Told P (perform c context s form).events) :
    (perform c context s form).value.AllNames P := by
  have htyped {schema : Option NameToken} {name : NameToken}
      (hnames : ∀ n ∈ name.name :: (schema.map NameToken.name).toList, P n) :
      P (schemaOr schema context.schema) ∧ P name.name := by
    refine ⟨schemaOr_of hcurrent fun token htoken => hnames _ ?_, hnames _ List.mem_cons_self⟩
    rw [htoken]
    simp
  have hpair {a b : String} (hnames : ∀ n ∈ [a, b], P n) : P a ∧ P b := by simpa using hnames
  cases form with
  | ignored => exact h
  | setSchema schema => exact h
  | setPath path => exact h
  | createTablespace name =>
    refine { h with tablespaces := h.tablespaces.insert ?_ }
    rw [tablespace_name]
    exact h.tablespaces.getD (hform name List.mem_cons_self)
  | createRole name =>
    rw [perform, createRole, expectEnd_value]
    exact h.mentionRole (hform name List.mem_cons_self)
  | commentRole name text => exact commentRole_allNames h name text _ _
  | createSchema name owner =>
    obtain ⟨hname, howner⟩ := List.forall_mem_cons.1 hform
    exact createSchema_allNames h hname (fun n hn => howner n (Option.mem_toList.2 hn)) _ _
  | createSequence schema name =>
    obtain ⟨hname, hschema⟩ := hpair hform
    exact createSequence_allNames h hschema hname _
  | restartSequence schema name value =>
    obtain ⟨-, hschema⟩ := hpair hform
    exact restartSequence_allNames h hschema name value _ _
  | createTable schema name =>
    obtain ⟨hname, hschema⟩ := hpair hform
    exact createTable_allNames h hschema hname htold
  | alterTable schema name =>
    obtain ⟨-, hschema⟩ := hpair hform
    exact alterTable_allNames h hschema htold
  | restartIdentity schema owner column value =>
    exact restartIdentity_allNames h (hform schema List.mem_cons_self) owner column value _ _
  | createIndex unique indexSchema name schema owner =>
    obtain ⟨hname, hrest⟩ := List.forall_mem_cons.1 hform
    exact createIndex_allNames h (hrest schema List.mem_cons_self) hname unique _ _ _ _
  | commentColumn schema owner column text =>
    exact commentColumn_allNames h (hform schema List.mem_cons_self) owner column text _ _
  | commentTable schema name text =>
    exact commentTable_allNames h (hform schema List.mem_cons_self) name text _
  | createDomain schema name base =>
    obtain ⟨hname, hschema⟩ := hpair hform
    exact createDomain_allNames h hschema hname base _ _
  | createView schema name first =>
    exact createView_allNames h context schema (htyped hform).2 first _
  | createTrigger schema name first =>
    exact createTrigger_allNames h (htyped hform).1 (htyped hform).2 first _
  | commentTrigger schema name text =>
    obtain ⟨-, hschema⟩ := hpair hform
    exact commentTrigger_allNames h hschema name text _ _
  | createFunction schema name first =>
    exact createFunction_allNames h (htyped hform).1 (htyped hform).2 first _

end

end SchemaTransfer.Load
