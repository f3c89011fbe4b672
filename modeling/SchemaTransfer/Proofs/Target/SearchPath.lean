import SchemaTransfer.Proofs.Names.Normal
import SchemaTransfer.Target.SearchPath

/-!
# Names in a search path

A search path writes a name in lower case, without the blanks around it and without double quotes.
A statement writes it without hyphens, and between double quotes if it is a reserved word. The two
are the same for plain names only.
-/
namespace SchemaTransfer.SearchPath
open Unicode

variable {entries : List String} {x new : String}

theorem mem_add : x ∈ add entries new ↔ x ∈ entries ∨ x = new ∧ x ≠ "" := by
  unfold add
  split
  · next h =>
    have hknown : new = "" ∨ new ∈ entries := by simpa using h
    refine ⟨.inl, fun hx => hx.elim id ?_⟩
    rintro ⟨rfl, hne⟩
    exact hknown.resolve_left hne
  · next h =>
    have hne : new ≠ "" := fun hnew => h (by simp [hnew])
    rw [List.mem_append, List.mem_singleton]
    exact or_congr_right ⟨fun hx => ⟨hx, hx ▸ hne⟩, And.left⟩

theorem prefix_add (entries : List String) (new : String) : entries <+: add entries new := by
  unfold add
  split
  · exact List.prefix_rfl
  · exact List.prefix_append _ _

theorem mem_foldl_add {news : List String} :
    x ∈ news.foldl add entries ↔ x ∈ entries ∨ x ∈ news ∧ x ≠ "" := by
  induction news generalizing entries with
  | nil => simp
  | cons new news ih =>
    rw [List.foldl_cons, ih, mem_add, List.mem_cons, or_and_right, or_assoc]

theorem prefix_foldl_add (entries news : List String) : entries <+: news.foldl add entries := by
  induction news generalizing entries with
  | nil => exact List.prefix_rfl
  | cons new news ih => exact (prefix_add entries new).trans (ih _)

/-- The current schema and each piece of the current path stand in the search path, unless nothing
is left of them. -/
theorem mem_entries {context : Context} :
    x ∈ SearchPath.entries context ↔ x ∈ candidates context ∧ x ≠ "" ∨ x = "db2" := by
  have hdb2 : x = "db2" ∧ x ≠ "" ↔ x = "db2" := and_iff_left_of_imp fun h => by
    rw [h]
    decide
  rw [SearchPath.entries, mem_add, mem_foldl_add, hdb2]
  simp only [List.not_mem_nil, false_or]

/-- The current schema stands first. -/
theorem head?_entries {context : Context} (h : entry context.schema.toList ≠ "") :
    (SearchPath.entries context).head? = some (entry context.schema.toList) := by
  have hfirst : add [] (entry context.schema.toList) = [entry context.schema.toList] :=
    if_neg (by simpa using h)
  have hprefix : [entry context.schema.toList] <+: SearchPath.entries context := by
    unfold SearchPath.entries candidates
    rw [List.map_cons, List.foldl_cons, hfirst]
    exact (prefix_foldl_add _ _).trans (prefix_add _ _)
  obtain ⟨rest, hrest⟩ := hprefix
  rw [← hrest]
  rfl

/-- A name that a search path writes as a statement does. -/
structure IsPlain (name : String) : Prop where
  ne_empty : name ≠ ""
  trimmed : trim name.toList = name.toList
  dashFree : '-' ∉ name.toList
  unreserved : lowerCase name ∉ reservedWords

instance (name : String) : Decidable (IsPlain name) :=
  decidable_of_iff (name ≠ "" ∧ trim name.toList = name.toList ∧ '-' ∉ name.toList ∧
      lowerCase name ∉ reservedWords)
    ⟨fun ⟨h₁, h₂, h₃, h₄⟩ => ⟨h₁, h₂, h₃, h₄⟩, fun ⟨h₁, h₂, h₃, h₄⟩ => ⟨h₁, h₂, h₃, h₄⟩⟩

/-- A piece of a path is the name of a schema, but for case, double quotes and the blanks around
it. -/
def NamesSchema (piece : List Char) (name : String) : Prop :=
  lower (trim (piece.filter (· != '"'))) = lower (trim name.toList)

instance (piece : List Char) (name : String) : Decidable (NamesSchema piece name) :=
  inferInstanceAs (Decidable (_ = _))

theorem namesSchema_self {name : String} (h : '"' ∉ name.toList) :
    NamesSchema name.toList name := by
  unfold NamesSchema
  rw [List.filter_eq_self.2 (Scan.ne_of_not_mem h)]

theorem mem_trim_of_dash {cs : List Char} (h : '-' ∈ cs) : '-' ∈ trim cs := by
  have hvisible {blanks : List Char} (hblanks : allBlank blanks = true) : '-' ∉ blanks :=
    fun hdash => absurd (List.all_eq_true.1 hblanks _ hdash) (by decide)
  obtain ⟨front, back, hfront, hback, hcs⟩ := exists_trim_append cs
  rw [hcs, List.mem_append, List.mem_append] at h
  exact (h.resolve_left (hvisible hfront)).resolve_right (hvisible hback)

/-- A name between double quotes has none in its search path. -/
theorem normalize_of_identifier {name entry : String} (h : '"' ∉ entry.toList)
    (hsame : entry = identifier name) :
    entry = normalize name ∧ normalize name ∉ reservedWords := by
  unfold identifier quoteReserved at hsame
  split at hsame
  · rw [hsame] at h
    simp at h
  · next hfree => exact ⟨hsame, by simpa using hfree⟩

theorem normalize_of_dashFree {name : String} (h : '-' ∉ name.toList) :
    normalize name = lowerCase name := by
  rw [normalize, withoutDashes, List.filter_eq_self.2 (Scan.ne_of_not_mem h), String.ofList_toList]

/-- The lower case of a trimmed name is its normalized form if there is nothing to trim and there
are no hyphens. -/
theorem lower_trim_eq_normalize {name : String} :
    String.ofList (lower (trim name.toList)) = normalize name ↔
      trim name.toList = name.toList ∧ '-' ∉ name.toList := by
  constructor
  · intro h
    have hlower : lower (trim name.toList) = lower (name.toList.filter (· != '-')) := by
      rw [← toList_normalize, ← h, String.toList_ofList]
    have hdash : '-' ∉ name.toList := by
      intro hdash
      have hlowered : '-' ∈ lower (trim name.toList) :=
        Casing.mem_lowerFrom_of_mem (by decide) (mem_trim_of_dash hdash)
      rw [hlower] at hlowered
      have hkept := (List.mem_filter.1 (Casing.mem_of_mem_lowerFrom (by decide) hlowered)).2
      exact absurd hkept (by decide)
    refine ⟨?_, hdash⟩
    obtain ⟨front, back, -, -, hname⟩ := exists_trim_append name.toList
    rw [List.filter_eq_self.2 (Scan.ne_of_not_mem hdash)] at hlower
    obtain ⟨rfl, rfl⟩ := eq_of_lower_eq_lower (hlower.trans (congrArg lower hname))
    rw [List.nil_append, List.append_nil] at hname
    exact hname.symm
  · rintro ⟨htrim, hdash⟩
    rw [htrim, normalize_of_dashFree hdash, lowerCase]

/-- What is written for a piece that names a schema is the identifier of the schema exactly if the
name is plain. -/
theorem entry_eq_identifier_iff {piece : List Char} {name : String} (h : NamesSchema piece name) :
    entry piece ≠ "" ∧ entry piece = identifier name ↔ IsPlain name := by
  have hentry : entry piece = .ofList (lower (trim name.toList)) := congrArg _ h
  have hempty : entry piece = "" ↔ trim name.toList = [] := by
    rw [hentry, ← String.toList_eq_nil_iff, String.toList_ofList, lower_eq_nil]
  have hfree : '"' ∉ (entry piece).toList := by
    rw [entry, String.toList_ofList]
    intro hquote
    have htrim : '"' ∈ trim (piece.filter (· != '"')) :=
      Casing.mem_of_mem_lowerFrom (by decide) hquote
    have hkept := (List.dropWhile_suffix _).mem ((List.rdropWhile_prefix isBlank _).mem htrim)
    exact absurd (List.mem_filter.1 hkept).2 (by decide)
  constructor
  · rintro ⟨hne, hsame⟩
    obtain ⟨hnormal, hunreserved⟩ := normalize_of_identifier hfree hsame
    obtain ⟨htrim, hdash⟩ := lower_trim_eq_normalize.1 (hentry.symm.trans hnormal)
    rw [normalize_of_dashFree hdash] at hunreserved
    refine ⟨?_, htrim, hdash, hunreserved⟩
    rintro rfl
    exact hne (hempty.2 rfl)
  · rintro ⟨hne, htrim, hdash, hunreserved⟩
    have hnormal := hentry.trans (lower_trim_eq_normalize.2 ⟨htrim, hdash⟩)
    refine ⟨fun h => hne ?_, ?_⟩
    · rw [hempty, htrim] at h
      exact String.toList_eq_nil_iff.1 h
    · rw [hnormal, identifier, quoteReserved, if_neg]
      rw [normalize_of_dashFree hdash]
      simpa using hunreserved

theorem entry_mem_entries_iff {context : Context} {piece : List Char}
    (h : piece ∈ context.schema.toList :: List.splitOn ',' context.path.toList) :
    entry piece ∈ SearchPath.entries context ↔ entry piece ≠ "" := by
  rw [mem_entries]
  constructor
  · rintro (⟨-, hne⟩ | hdb2)
    · exact hne
    · rw [hdb2]
      decide
  · exact fun hne => .inl ⟨List.mem_map_of_mem h, hne⟩

theorem eq_empty_of_entry {name : String} (h : Scan.IsName name) (hentry : entry name.toList = "") :
    name = "" := by
  rw [entry, List.filter_eq_self.2 (Scan.ne_of_not_mem h.quoteFree), ← String.toList_eq_nil_iff,
    String.toList_ofList, lower_eq_nil] at hentry
  obtain ⟨front, back, hfront, hback, hname⟩ := exists_trim_append name.toList
  rw [hentry, List.nil_append] at hname
  have hblank : allBlank (front ++ back) = true := by
    rw [allBlank, List.all_append, Bool.and_eq_true]
    exact ⟨hfront, hback⟩
  have hnil : trimRight name.toList = [] := hname ▸ trimRight_append_of_allBlank hblank []
  rw [h.trimmed] at hnil
  exact String.toList_eq_nil_iff.1 hnil

/-- The first entry is the identifier of the current schema exactly if its name is plain. -/
theorem head?_entries_iff {context : Context} (h : Scan.IsName context.schema) :
    (SearchPath.entries context).head? = some (identifier context.schema) ↔
      IsPlain context.schema := by
  rw [← entry_eq_identifier_iff (namesSchema_self h.quoteFree)]
  by_cases hentry : entry context.schema.toList = ""
  · refine iff_of_false (fun hhead => ?_) fun hne => hne.1 hentry
    have hempty : identifier "" = "" := by decide
    rw [eq_empty_of_entry h hentry, hempty] at hhead
    rcases mem_entries.1 (List.mem_of_mem_head? hhead) with ⟨-, hne⟩ | hdb2
    · exact hne rfl
    · exact absurd hdb2 (by decide)
  · rw [head?_entries hentry, Option.some_inj]
    exact (and_iff_right hentry).symm

/-- So is what is written for a piece of the current path that names a schema. -/
theorem piece_iff {context : Context} {piece : List Char} {name : String}
    (hpiece : piece ∈ List.splitOn ',' context.path.toList) (h : NamesSchema piece name) :
    entry piece ∈ SearchPath.entries context ∧ entry piece = identifier name ↔ IsPlain name := by
  rw [entry_mem_entries_iff (List.mem_cons_of_mem _ hpiece)]
  exact entry_eq_identifier_iff h

end SchemaTransfer.SearchPath
