import SchemaTransfer.Proofs.Load.Function
import SchemaTransfer.Proofs.Target.CopiedText
import SchemaTransfer.Proofs.Target.Schemas
import SchemaTransfer.Proofs.Target.Tables

/-!
# Functions from the dump to the script

No function is lost on the way: the catalog keeps one for each statement that creates one, and the
script that is copied holds one block for each function of the catalog, with the name and the body
that were written.
-/
namespace SchemaTransfer
open Load Dump Emit

/-- Lists with the same members for each schema have the same members. -/
theorem perm_of_qualifier {l m : Script} (hl : ∀ item ∈ l, item.isFunction = true)
    (hm : ∀ item ∈ m, item.isFunction = true)
    (h : ∀ schema, (l.filter (·.qualifier? = some schema)).Perm
      (m.filter (·.qualifier? = some schema))) : l.Perm m := by
  apply List.perm_iff_count.2
  intro item
  by_cases hitem : item.isFunction = true
  · obtain ⟨schema, hschema⟩ : ∃ schema, item.qualifier? = some schema := by
      cases item <;> first | exact ⟨_, rfl⟩ | cases hitem
    have hcount := (h schema).count_eq item
    rwa [List.count_filter (by simpa using hschema), List.count_filter (by simpa using hschema)]
      at hcount
  · rw [List.count_eq_zero_of_not_mem fun hmem => hitem (hl item hmem),
      List.count_eq_zero_of_not_mem fun hmem => hitem (hm item hmem)]

theorem Catalog.WellKept.filter_functionBlocks {c : Catalog} (h : c.WellKept) (schema : String) :
    c.functionBlocks.filter (·.qualifier? = some schema) =
      (c.schema schema).routines.values.map fun f =>
        .createFunction schema f.name f.statement := by
  have hentries : c.functionBlocks.filter (·.qualifier? = some schema) =
      c.schemas.entries.flatMap fun e =>
        e.2.functionBlocks.filter (·.qualifier? = some schema) := by
    simp only [functionBlocks, Keyed.values, List.flatMap_map, List.filter_flatMap]
  rw [hentries, Keyed.flatMap_entries c.schemas schema]
  · unfold Catalog.schema
    cases hs : c.schemas.get? schema with
    | none => rfl
    | some s =>
      have hname : s.name = schema := (h.schemas.of_get? hs).name
      simp [Schema.functionBlocks, List.filter_map, Function.comp_def, Item.qualifier?, hname]
  · intro e he hne
    have hname : e.2.name ≠ schema := by rwa [(h.schemas e he).name]
    simp [Schema.functionBlocks, List.filter_map, Function.comp_def, Item.qualifier?, hname]

theorem filter_functionBlock (schema : String) (context : Context) (t : Taken) :
    (functionBlock? context t).filter (·.qualifier? = some schema) =
      (routineOf? schema context t).map fun f => .createFunction schema f.name f.statement := by
  unfold functionBlock? routineOf?
  cases Form.ofLine? t.statement.first with
  | none => rfl
  | some form =>
    cases form with
    | createFunction written name first =>
      by_cases hplace : placeOf written context = schema
      · simp [hplace, Item.qualifier?]
      · simp [hplace, Item.qualifier?]
    | _ => rfl

theorem filter_inContext_functionBlock (ts : List Taken) (schema : String) :
    (inContext functionBlock? ts).filter (·.qualifier? = some schema) =
      (inContext (routineOf? schema) ts).map fun f =>
        .createFunction schema f.name f.statement := by
  unfold inContext
  rw [List.filter_filterMap, List.map_filterMap]
  exact List.filterMap_congr fun (t, i) _ => filter_functionBlock schema _ t

/-- The catalog holds one function for each statement that creates one. -/
theorem load_functionBlocks {ts : List Taken} {q : Catalog × Context}
    (h : load ({}, {}) ts = some q) :
    q.1.functionBlocks.Perm (inContext functionBlock? ts) := by
  apply perm_of_qualifier
  · intro item hitem
    obtain ⟨s, -, hitem⟩ := List.mem_flatMap.1 hitem
    obtain ⟨f, -, rfl⟩ := List.mem_map.1 hitem
    rfl
  · intro item hitem
    obtain ⟨⟨t, i⟩, -, hblock⟩ := List.mem_filterMap.1 hitem
    dsimp only [functionBlock?] at hblock
    split at hblock
    · cases hblock
      rfl
    · cases hblock
  · intro schema
    rw [(load_wellKept Catalog.wellKept_empty h).filter_functionBlocks,
      filter_inContext_functionBlock]
    exact (load_routines h).map _

theorem not_isFunction_of_begins {item : Item} (h : begins "CREATE FUNCTION " item.render = false) :
    item.isFunction = false := by
  by_contra hfunction
  rw [Bool.not_eq_false] at hfunction
  have hwords : item.words = "CREATE FUNCTION " := by
    cases item with
    | createFunction => rfl
    | _ => cases hfunction
  rw [← hwords, item.begins_render] at h
  cases h

/-- One block for each function of the catalog, and no other. -/
theorem filter_isFunction {c : Catalog} {pre post : Script}
    (hpre : ∀ item ∈ pre, begins "CREATE FUNCTION " item.render = false)
    (hpost : ∀ item ∈ post, Unsure.IsBehindFunctions c item) :
    (pre ++ c.functionBlocks ++ post).filter Item.isFunction = c.functionBlocks := by
  have hnone {items : Script} (h : ∀ item ∈ items, item.isFunction = false) :
      items.filter Item.isFunction = [] :=
    List.filter_eq_nil_iff.2 fun item hitem => by simp [h item hitem]
  have hall : ∀ item ∈ c.functionBlocks, item.isFunction = true := by
    intro item hitem
    obtain ⟨s, -, hitem⟩ := List.mem_flatMap.1 hitem
    obtain ⟨f, -, rfl⟩ := List.mem_map.1 hitem
    rfl
  rw [List.filter_append, List.filter_append,
    hnone fun item hitem => not_isFunction_of_begins (hpre item hitem), List.nil_append,
    List.filter_eq_self.2 hall, hnone fun item hitem => (hpost item hitem).notFunction,
    List.append_nil]

/-- The block for a statement that creates a function: its schema and its name as the target writes
them, and its body as it was written. -/
def IsFunctionText (context : Context) (t : Taken) (text : String) : Prop :=
  ∃ written name first body,
    Form.ofLine? t.statement.first = some (.createFunction written name first) ∧
    IsBody first t.statement.rest body ∧
    text = "CREATE FUNCTION " ++ identifier (placeOf written context) ++ "." ++
      identifier name.name ++ " AS\n$func$\n" ++ body ++ "\n$func$;"

theorem isFunctionText_iff {context : Context} {t : Taken} {text : String} :
    IsFunctionText context t text ↔ (functionBlock? context t).map Item.render = some text := by
  have hrender (schema name body : String) : (Item.createFunction schema name body).render =
      "CREATE FUNCTION " ++ identifier schema ++ "." ++ identifier name ++ " AS\n$func$\n" ++
        body ++ "\n$func$;" := by
    unfold Item.render
    simp only [qualifiedName, Item.functionBody, String.append_assoc]
  constructor
  · rintro ⟨written, name, first, body, hform, hbody, rfl⟩
    rw [isBody_iff.1 hbody, functionBlock?, hform, Option.map_some, hrender]
  · intro h
    obtain ⟨item, hitem, rfl⟩ := Option.map_eq_some_iff.1 h
    unfold functionBlock? at hitem
    split at hitem
    · next written name first hform =>
      cases hitem
      exact ⟨written, name, first, _, hform, isBody_iff.2 rfl, hrender _ _ _⟩
    · cases hitem

/-- Each statement that creates a function has its text. -/
theorem forall₂_functionText (ts : List Taken) :
    List.Forall₂ (fun p => IsFunctionText p.1 p.2) (functionStatements ts)
      ((inContext functionBlock? ts).map Item.render) := by
  unfold functionStatements inContext
  generalize ts.zipIdx = members
  induction members with
  | nil => exact .nil
  | cons member members ih =>
    obtain ⟨t, i⟩ := member
    cases hblock : functionBlock? (contextAfter (ts.take i)) t with
    | none => simpa [List.filterMap_cons, hblock] using ih
    | some item =>
      simp only [List.filterMap_cons, hblock, Option.map_some, List.map_cons]
      exact .cons (isFunctionText_iff.2 (by rw [hblock]; rfl)) ih

theorem functionText_unique {ts : List Taken} {texts : List String}
    (h : List.Forall₂ (fun p => IsFunctionText p.1 p.2) (functionStatements ts) texts) :
    texts = (inContext functionBlock? ts).map Item.render := by
  refine List.right_unique_forall₂' (fun p text other htext hother => ?_) h
    (forall₂_functionText ts)
  rw [isFunctionText_iff] at htext hother
  exact Option.some.inj (htext.symm.trans hother)

/-- A dump of functions is converted. -/
theorem exists_convert_of_functions (withTablespaces : Bool) (verdicts : List Verdict)
    {lines : List (List Char)} (h : ∀ t ∈ statements lines, CreatesFunction t) :
    ∃ r, (convert withTablespaces verdicts lines).outcome = .ok r := by
  obtain ⟨p, hload⟩ := exists_load_of_functions h ({}, {})
  have hkept : p.1.WellKept := load_wellKept Catalog.wellKept_empty hload
  have hcolumns : ∀ x ∈ p.1.tables, ∀ k ∈ x.2.columns, k.defaultValue?.toOption.isSome = true := by
    intro x hx
    have hcreated := hkept.mem_created_iff.1 (List.mem_map_of_mem hx)
    rw [columnNames?_of_functions h hload] at hcreated
    cases hcreated
  obtain ⟨scripts, emission, hemit⟩ :=
    emitScripts_of_columns withTablespaces (.start p.1 verdicts) hcolumns
  obtain ⟨r, hr, -⟩ := exists_converts hload hemit
  exact ⟨r, hr⟩

/-- No function is lost. In any session a statement that creates a function gives the catalog that
function, with the body that was written, and changes nothing else in it. A dump of such statements
is converted. The script that is copied holds one block for each such statement of a dump, with its
schema, its name and its body, and no other block of a function; so does the text of the script, but
for the functions that stand for triggers. -/
theorem convert_functions :
    (∀ (session : Session) (s : Statement) (written : Option NameToken) (name : NameToken)
      (first : List Char), Form.ofLine? s.first = some (.createFunction written name first) →
      (session.take s).outcome = .ok [] ∧
        ∃ body key, IsBody first s.rest body ∧ (∀ other, IsBody first s.rest other → other = body) ∧
          GetsFunction session.catalog session.context (placeOf written session.context)
            name.name body (session.take s).session.catalog key) ∧
    ∀ (withTablespaces : Bool) (verdicts : List Verdict) (lines : List (List Char)),
      ((∀ t ∈ statements lines, CreatesFunction t) →
        ∃ r, (convert withTablespaces verdicts lines).outcome = .ok r) ∧
      ∀ r, (convert withTablespaces verdicts lines).outcome = .ok r →
        (r.scripts.unsure.filter Item.isFunction).Perm
          (inContext functionBlock? (statements lines)) ∧
        ∃ pre blocks post texts,
          r.scripts.unsure.render = unlines (pre ++ blocks ++ post) ++ "\n" ∧
          blocks.Perm texts ∧
          List.Forall₂ (fun p => IsFunctionText p.1 p.2) (functionStatements (statements lines))
            texts ∧
          (∀ text ∈ pre, begins "CREATE FUNCTION " text = false) ∧
          ∀ text ∈ post, begins "CREATE FUNCTION " text = true →
            ∃ s ∈ r.session.catalog.schemas.values, ∃ entry ∈ s.triggers.entries,
              text = Unsure.triggerText s entry := by
  refine ⟨fun session s written name first hform => ?_, ?_⟩
  · obtain ⟨houtcome, key, hgets⟩ := take_createFunction session hform
    exact ⟨houtcome, _, key, isBody_iff.2 rfl, fun _ => isBody_iff.1, hgets⟩
  intro withTablespaces verdicts lines
  refine ⟨exists_convert_of_functions withTablespaces verdicts, fun r hr => ?_⟩
  have hconverts := converts_of_ok hr
  have hblocks := load_functionBlocks hconverts.loads
  obtain ⟨-, -, e, hunsure⟩ := emitScripts_parts hconverts.emits
  obtain ⟨pre, post, hlayout, hpre, hpost⟩ := yields_emitUnsure_functions r.session.catalog e
  rw [hunsure] at hlayout
  rw [hlayout]
  refine ⟨?_, pre.map Item.render, r.session.catalog.functionBlocks.map Item.render,
    post.map Item.render, _, ?_, hblocks.map Item.render, forall₂_functionText _, ?_, ?_⟩
  · rwa [filter_isFunction hpre hpost]
  · rw [Script.render, List.map_append, List.map_append]
  · rwa [List.forall_mem_map]
  · rw [List.forall_mem_map]
    exact fun item hitem => (hpost item hitem).trigger

/-- Two functions of one name, the first of which has a body of several lines, and one whose name is
the key of the second of them. -/
def overloads : List (List Char) :=
  ["CREATE FUNCTION S.F (A INTEGER)  ", "  RETURNS INTEGER", "BEGIN ATOMIC", "  RETURN A;", "END;",
    "CREATE FUNCTION S.F", "(A BIGINT) RETURN A;",
    "CREATE FUNCTION \"S\".\"F_2\" () RETURN 1;"].map String.toList

theorem convert_functions_overloads :
    (∃ key, GetsFunction {} {} "S" "F" "(A INTEGER)\n  RETURNS INTEGER\n RETURN A"
      (({} : Session).take ⟨"CREATE FUNCTION S.F (A INTEGER) ".toList,
        ["  RETURNS INTEGER".toList, " RETURN A".toList], 1⟩).session.catalog key) ∧
    ∃ r, (convert false [] overloads).outcome = .ok r ∧
      ∃ pre blocks post, r.scripts.unsure.render = unlines (pre ++ blocks ++ post) ++ "\n" ∧
        blocks.Perm
          ["CREATE FUNCTION s.f AS\n$func$\n(A INTEGER)\n  RETURNS INTEGER\nBEGIN ATOMIC\n" ++
              "  RETURN A;\nEND\n$func$;",
            "CREATE FUNCTION s.f AS\n$func$\n(A BIGINT) RETURN A\n$func$;",
            "CREATE FUNCTION s.f_2 AS\n$func$\n() RETURN 1\n$func$;"] := by
  constructor
  · have hform : Form.ofLine? "CREATE FUNCTION S.F (A INTEGER) ".toList = some
        (.createFunction (some (.plain ['S'])) (.plain ['F']) " (A INTEGER) ".toList) := by
      decide +kernel
    obtain ⟨-, body, key, -, honly, hgets⟩ := convert_functions.1 {}
      ⟨_, ["  RETURNS INTEGER".toList, " RETURN A".toList], 1⟩ _ _ _ hform
    have hbody : IsBody ([' '] ++ ("(A INTEGER)".toList ++ [' ']))
        ["  RETURNS INTEGER".toList, " RETURN A".toList]
        "(A INTEGER)\n  RETURNS INTEGER\n RETURN A" :=
      .begun rfl rfl (by decide) (by decide) _
    exact ⟨key, honly _ hbody ▸ hgets⟩
  · obtain ⟨hconverts, hblocks⟩ := convert_functions.2 false [] overloads
    obtain ⟨r, hr⟩ := hconverts (by decide +kernel)
    obtain ⟨-, pre, blocks, post, texts, hrender, hperm, htexts, -⟩ := hblocks r hr
    rw [functionText_unique htexts] at hperm
    have hwritten : (inContext functionBlock? (statements overloads)).map Item.render =
        ["CREATE FUNCTION s.f AS\n$func$\n(A INTEGER)\n  RETURNS INTEGER\nBEGIN ATOMIC\n" ++
            "  RETURN A;\nEND\n$func$;",
          "CREATE FUNCTION s.f AS\n$func$\n(A BIGINT) RETURN A\n$func$;",
          "CREATE FUNCTION s.f_2 AS\n$func$\n() RETURN 1\n$func$;"] := by
      decide +kernel
    exact ⟨r, hr, pre, blocks, post, hrender, hwritten ▸ hperm⟩

end SchemaTransfer
