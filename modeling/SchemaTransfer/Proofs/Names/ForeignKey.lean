import SchemaTransfer.Proofs.Names.Fresh
import SchemaTransfer.Target.ForeignKeyName

/-!
# Names of the foreign keys of a table

Names are assigned in the order of the foreign keys. One without a name gets its base name, or the
closest to it that no foreign key of the table brings along and that was not assigned to an unnamed
one before. So its name is that of no other foreign key of the table.
-/
namespace SchemaTransfer.ForeignKeyName

/-- The base name itself if it is free, or else with the smallest positive number that makes it
so. -/
def IsClosest (taken : List String) (base name : String) : Prop :=
  (base ∉ taken ∧ name = base) ∨
    base ∈ taken ∧ ∃ n : ℕ, 0 < n ∧ name = base ++ n.repr ∧ name ∉ taken ∧
      ∀ m : ℕ, 0 < m → m < n → base ++ m.repr ∈ taken

theorem IsClosest.free {taken : List String} {base name : String}
    (h : IsClosest taken base name) : name ∉ taken := by
  rcases h with ⟨hbase, rfl⟩ | ⟨-, n, -, -, hfree, -⟩
  · exact hbase
  · exact hfree

/-- Only which names are taken counts. -/
theorem IsClosest.congr {xs ys : List String} {base name : String} (h : ∀ x, x ∈ xs ↔ x ∈ ys)
    (hclosest : IsClosest xs base name) : IsClosest ys base name := by
  unfold IsClosest at hclosest ⊢
  simpa only [h] using hclosest

theorem choose_isClosest (taken : List String) (base : String) :
    IsClosest taken base (choose taken base) := by
  by_cases hbase : base ∈ taken
  · have hsome : ∃ k < taken.length + 1, taken.contains (base ++ (k + 1).repr) = false := by
      obtain ⟨k, hk, hfree⟩ :=
        Names.exists_not_mem_of_injective (Names.numbered_injective base) taken
      exact ⟨k, hk, by simpa using hfree⟩
    obtain ⟨k, -, hname, hfree, hleast⟩ := Names.numbered_spec hsome
    have hchosen : choose taken base = base ++ (k + 1).repr := by
      rw [choose, if_pos (List.contains_iff_mem.2 hbase), hname]
    refine .inr ⟨hbase, k + 1, Nat.succ_pos k, hchosen, ?_, fun m hm hmk => ?_⟩
    · rw [hchosen]
      simpa using hfree
    · have htaken := hleast (m - 1) (by omega)
      rw [Nat.sub_add_cancel hm] at htaken
      exact List.contains_iff_mem.1 htaken
  · refine .inl ⟨hbase, ?_⟩
    rw [choose, if_neg (by simpa using hbase)]

/-- The names that were assigned to the unnamed ones of some foreign keys. -/
def unnamed (keys : List (ForeignKey × String)) : List String :=
  (keys.filter fun k => (given k.1.name).isNone).map (·.2)

variable {table own name : String} {taken : List String} {keys : List ForeignKey}
  {before after : List (ForeignKey × String)} {k : ForeignKey}

theorem assign_keys (table : String) (taken : List String) (keys : List ForeignKey) :
    (assign table taken keys).map (·.1) = keys := by
  fun_induction assign table taken keys with
  | case1 => rfl
  | case2 taken k rest own _ ih => rw [List.map_cons, ih]
  | case3 taken k rest _ name ih => rw [List.map_cons, ih]

theorem name_of_mem_assign (h : (k, name) ∈ assign table taken keys)
    (hown : given k.name = some own) : name = identifier own := by
  fun_induction assign table taken keys with
  | case1 => cases h
  | case2 taken key rest other hother ih =>
    rcases List.mem_cons.1 h with heq | h
    · obtain ⟨hkey, hname⟩ := Prod.mk.inj heq
      rw [hkey] at hown
      rw [hname, Option.some.inj (hown.symm.trans hother)]
    · exact ih h
  | case3 taken key rest hnone other ih =>
    rcases List.mem_cons.1 h with heq | h
    · obtain ⟨rfl, -⟩ := Prod.mk.inj heq
      cases hown.symm.trans hnone
    · exact ih h

theorem mem_named_of_mem_assign (h : (k, name) ∈ assign table taken keys)
    (hown : given k.name = some own) : name ∈ named keys := by
  have hmem : k ∈ keys := by
    rw [← assign_keys table taken keys]
    exact List.mem_map_of_mem h
  refine List.mem_filterMap.2 ⟨k, hmem, ?_⟩
  rw [hown, Option.map_some, name_of_mem_assign h hown]

/-- An unnamed foreign key goes around what was taken at the start and the unnamed ones ahead. -/
theorem isClosest_of_assign (h : assign table taken keys = before ++ (k, name) :: after)
    (hk : given k.name = none) : IsClosest (taken ++ unnamed before) (base table k) name := by
  induction keys generalizing taken before with
  | nil => simp [assign] at h
  | cons key rest ih =>
    rw [assign] at h
    cases hkey : given key.name with
    | some own =>
      simp only [hkey] at h
      cases before with
      | nil =>
        obtain ⟨heq, -⟩ := List.cons.inj h
        obtain ⟨rfl, -⟩ := Prod.mk.inj heq
        cases hkey.symm.trans hk
      | cons first before =>
        obtain ⟨rfl, hrest⟩ := List.cons.inj h
        have hsame : unnamed ((key, identifier own) :: before) = unnamed before := by
          simp [unnamed, hkey]
        rw [hsame]
        exact ih hrest
    | none =>
      simp only [hkey] at h
      cases before with
      | nil =>
        obtain ⟨heq, -⟩ := List.cons.inj h
        obtain ⟨rfl, rfl⟩ := Prod.mk.inj heq
        simpa [unnamed] using choose_isClosest taken (base table key)
      | cons first before =>
        obtain ⟨rfl, hrest⟩ := List.cons.inj h
        have hmore : unnamed ((key, choose taken (base table key)) :: before) =
            choose taken (base table key) :: unnamed before := by
          simp [unnamed, hkey]
        rw [hmore]
        exact (ih hrest).congr fun x => List.perm_middle.symm.mem_iff

/-- The name that an unnamed foreign key gets is that of no other. -/
theorem ne_of_assign (h : assign table (named keys) keys = before ++ (k, name) :: after)
    (hk : given k.name = none) : ∀ other ∈ before ++ after, other.2 ≠ name := by
  have hfree : name ∉ named keys ++ unnamed before := (isClosest_of_assign h hk).free
  rw [List.mem_append, not_or] at hfree
  have hall {other : ForeignKey × String} (hother : other ∈ before ++ after) :
      other ∈ assign table (named keys) keys := by
    rw [h]
    rcases List.mem_append.1 hother with hother | hother
    · exact List.mem_append_left _ hother
    · exact List.mem_append_right _ (List.mem_cons_of_mem _ hother)
  rintro ⟨other, shared⟩ hother rfl
  -- Of two unnamed foreign keys the later one went around the name of the earlier.
  cases hown : given other.name with
  | some own => exact hfree.1 (mem_named_of_mem_assign (hall hother) hown)
  | none =>
    rcases List.mem_append.1 hother with hbefore | hafter
    · exact hfree.2 (List.mem_map.2 ⟨_, List.mem_filter.2 ⟨hbefore, by rw [hown]; rfl⟩, rfl⟩)
    · obtain ⟨between, behind, rfl⟩ := List.append_of_mem hafter
      have hsplit : assign table (named keys) keys =
          (before ++ (k, shared) :: between) ++ (other, shared) :: behind := by
        rw [h]
        simp
      refine (isClosest_of_assign hsplit hown).free (List.mem_append_right _ ?_)
      refine List.mem_map.2 ⟨(k, shared), List.mem_filter.2 ⟨?_, by rw [hk]; rfl⟩, rfl⟩
      exact List.mem_append_right _ List.mem_cons_self

/-- A name is brought along, or was not taken at the start. -/
theorem mem_named_or_of_mem_assign (h : name ∈ (assign table taken keys).map (·.2)) :
    name ∈ named keys ∨ name ∉ taken := by
  obtain ⟨⟨k, shared⟩, hmem, rfl⟩ := List.mem_map.1 h
  cases hown : given k.name with
  | some own => exact .inl (mem_named_of_mem_assign hmem hown)
  | none =>
    obtain ⟨before, after, hsplit⟩ := List.append_of_mem hmem
    exact .inr fun htaken =>
      (isClosest_of_assign hsplit hown).free (List.mem_append_left _ htaken)

/-- Foreign keys that bring different names along all have different names. -/
theorem nodup_assign (hnamed : (named keys).Nodup) (htaken : ∀ own ∈ named keys, own ∈ taken) :
    ((assign table taken keys).map (·.2)).Nodup := by
  fun_induction assign table taken keys with
  | case1 => exact .nil
  | case2 taken k rest own hown ih =>
    have hsplit : named (k :: rest) = identifier own :: named rest := by
      rw [named, List.filterMap_cons, hown]
      rfl
    rw [hsplit] at hnamed htaken
    obtain ⟨hother, hrest⟩ := List.nodup_cons.1 hnamed
    obtain ⟨hown, hothers⟩ := List.forall_mem_cons.1 htaken
    rw [List.map_cons, List.nodup_cons]
    dsimp only
    refine ⟨fun hmem => ?_, ih hrest hothers⟩
    rcases mem_named_or_of_mem_assign hmem with hagain | hfree
    · exact hother hagain
    · exact hfree hown
  | case3 taken k rest hnone chosen ih =>
    have hsame : named (k :: rest) = named rest := by
      rw [named, List.filterMap_cons, hnone]
      rfl
    rw [hsame] at hnamed htaken
    have hfree : chosen ∉ taken := (choose_isClosest taken (base table k)).free
    rw [List.map_cons, List.nodup_cons]
    refine ⟨fun hmem => ?_, ih hnamed fun own hown => ?_⟩
    · rcases mem_named_or_of_mem_assign hmem with hother | hother
      · exact hfree (htaken _ hother)
      · exact hother List.mem_cons_self
    · exact List.mem_cons_of_mem _ (htaken own hown)

/-- A number that a named foreign key has already is left out. -/
example :
    let key (name : Option String) : ForeignKey :=
      { columns := ["A"], refSchema := "S", refTable := "U", refColumns := ["B"], name }
    let keys := [key none, key (some "T_A_FKEY1"), key (some ""), key none]
    (assign "T" (named keys) keys).map (·.2) =
      ["t_a_fkey", "t_a_fkey1", "t_a_fkey2", "t_a_fkey3"] := by
  decide +kernel

end SchemaTransfer.ForeignKeyName
