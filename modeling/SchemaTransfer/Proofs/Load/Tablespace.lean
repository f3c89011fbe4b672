import SchemaTransfer.Proofs.Load.Run

/-!
# Tablespaces of a dump

A tablespace has the containers that the statements creating it give, in their order. No other
statement has a part in them.
-/
namespace SchemaTransfer

/-- The paths of the containers of a tablespace; one that is not there has none. -/
def Catalog.containers (c : Catalog) (name : String) : List String :=
  ((c.tablespaces.get? name).map Tablespace.paths).getD []

theorem Catalog.head?_containers {c : Catalog} {name location : String} :
    (c.containers name).head? = some location ↔
      ∃ t, c.tablespaces.get? name = some t ∧ t.paths.head? = some location := by
  unfold containers
  cases c.tablespaces.get? name <;> simp

namespace Load
open Dump

/-- The containers that a statement gives to a tablespace. -/
def containersOf (name : String) (t : Taken) : List String :=
  match Form.ofLine? t.statement.first with
  | some (.createTablespace other) =>
    if other = name then (TablespaceBody.read { name } false t.statement.rest).value.paths else []
  | _ => []

/-- What lines add to the containers of a tablespace does not depend on those that it has. -/
theorem exists_paths_read (lines : List (List Char)) (inList : Bool) :
    ∃ paths, ∀ t, (TablespaceBody.read t inList lines).value.paths = t.paths ++ paths := by
  induction lines generalizing inList with
  | nil => exact ⟨[], fun t => by cases inList <;> exact (List.append_nil _).symm⟩
  | cons line rest ih =>
    simp only [tablespace_read_cons]
    cases (if inList then some line else containersStart? line) with
    | none =>
      dsimp only
      split
      · exact ih false
      · exact ⟨[], fun t => (List.append_nil _).symm⟩
    | some text =>
      dsimp only
      split
      · exact ⟨[], fun t => (List.append_nil _).symm⟩
      · obtain ⟨paths, hpaths⟩ := ih (TablespaceBody.goesOn (Container.ofLine text))
        refine ⟨(Container.ofLine text).map (·.path) ++ paths, fun t => ?_⟩
        rw [hpaths, TablespaceBody.addPaths, List.append_assoc]

theorem read_paths (t : Tablespace) (name : String) (lines : List (List Char)) :
    (TablespaceBody.read t false lines).value.paths =
      t.paths ++ (TablespaceBody.read { name } false lines).value.paths := by
  obtain ⟨paths, hpaths⟩ := exists_paths_read lines false
  rw [hpaths, hpaths, List.nil_append]

variable {p q : Catalog × Context} {name : String}

theorem tablespace_mem_edits {context : Context} {rest : List (List Char)} {form : Form}
    (h : .tablespace name ∈ (edits context rest form).map Edit.object) :
    form = .createTablespace name := by
  cases form with
  | createTablespace other =>
    obtain rfl : name = other := by simpa [edits] using h
    rfl
  | createSchema schema owner =>
    rw [edits] at h
    cases hgiven : given owner <;> simp [hgiven, createSchemaEdits] at h
  | _ => simp [edits] at h

theorem advance_containers {t : Taken} (h : advance p t.statement = some q) :
    q.1.containers name = p.1.containers name ++ containersOf name t := by
  obtain ⟨form, hform, -, hedits⟩ := advance_eq_some h
  by_cases hname : form = .createTablespace name
  · subst hname
    have hsome : containersOf name t =
        (TablespaceBody.read { name } false t.statement.rest).value.paths := by
      unfold containersOf
      rw [hform]
      exact if_pos rfl
    obtain ⟨new, hnew, hcontent⟩ := content_advance hform rfl h
    obtain ⟨t', hread, rfl⟩ := Option.map_eq_some_iff.1 hnew
    have hget : q.1.tablespaces.get? name = some t' := hcontent
    rw [Catalog.containers, hget, Option.map_some, Option.getD_some, ← value_of_result? hread,
      read_paths _ name]
    rw [hsome, Catalog.containers]
    dsimp only [Catalog.content]
    cases p.1.tablespaces.get? name <;> rfl
  · have hget : q.1.tablespaces.get? name = p.1.tablespaces.get? name :=
      Catalog.content_editAll hedits (x := .tablespace name) fun hmem =>
        hname (tablespace_mem_edits hmem)
    have hnone : containersOf name t = [] := by
      unfold containersOf
      rw [hform]
      cases form with
      | createTablespace other => exact if_neg fun hother => hname (by rw [hother])
      | _ => rfl
    rw [hnone, List.append_nil, Catalog.containers, hget, Catalog.containers]

/-- The containers of a tablespace after loading. -/
theorem load_containers {ts : List Taken} (h : load p ts = some q) :
    q.1.containers name = p.1.containers name ++ ts.flatMap (containersOf name) := by
  induction ts generalizing p with
  | nil =>
    cases h
    exact (List.append_nil _).symm
  | cons t ts ih =>
    obtain ⟨p', hp', h⟩ := Option.bind_eq_some_iff.1 (load_cons p t ts ▸ h)
    rw [ih h, advance_containers hp', List.flatMap_cons, List.append_assoc]

end Load

end SchemaTransfer
