import SchemaTransfer.Proofs.Extent
import SchemaTransfer.Proofs.Segment
import SchemaTransfer.Text.Replace

/-!
# Replacing and quotes

A pattern that stops at a quote is replaced between the quotes of a text as if each piece stood
alone. Replacing leaves a text as it is or puts the new text into it.
-/
namespace SchemaTransfer.Replace
open Unicode Scan

variable {p : List Char → Option (List Char)} {new : List Char} {atWord : Bool}

theorem extent?_append {e : List Char} (h : StopsAt p e) (cs : List Char) :
    extent? p (cs ++ e) = extent? p cs := by
  unfold extent?
  rw [h cs, Option.map_map]
  congr 1
  funext rest
  rw [Function.comp_apply, List.length_append, List.length_append, Nat.add_sub_add_right]

theorem extent?_le {cs : List Char} {n : Nat} (h : extent? p cs = some n) : n ≤ cs.length := by
  obtain ⟨rest, -, rfl⟩ := Option.map_eq_some_iff.1 h
  exact Nat.sub_le _ _

theorem allFrom_some {inWord : Bool} {c : Char} {cs : List Char} {n : Nat}
    (h : (if atWord && inWord then none else extent? p (c :: cs)) = some n) :
    allFrom p atWord new 0 inWord (c :: cs) =
      new ++ allFrom p atWord new (n - 1) (isWord c) cs := by
  rw [allFrom, h]

theorem allFrom_none {inWord : Bool} {c : Char} {cs : List Char}
    (h : (if atWord && inWord then none else extent? p (c :: cs)) = none) :
    allFrom p atWord new 0 inWord (c :: cs) = c :: allFrom p atWord new 0 (isWord c) cs := by
  rw [allFrom, h]

/-- Behind a quote the text is searched anew. -/
theorem allFrom_quote (hstops : ∀ e, StopsAt p ('\'' :: e)) (hnil : p [] = none) {n : Nat}
    {inWord : Bool} {a : List Char} (hn : n ≤ a.length) (b : List Char) :
    allFrom p atWord new n inWord (a ++ '\'' :: b) =
      allFrom p atWord new n inWord a ++ '\'' :: allFrom p atWord new 0 false b := by
  induction a generalizing n inWord with
  | nil =>
    obtain rfl := Nat.le_zero.1 hn
    have hp : extent? p ('\'' :: b) = none := by
      rw [← List.nil_append ('\'' :: b), extent?_append (hstops b), extent?, hnil]
      rfl
    have hword : isWord '\'' = false := by decide
    rw [List.nil_append, allFrom_none (by rw [hp, ite_self]), hword]
    rfl
  | cons c a ih =>
    have hsame := extent?_append (hstops b) (c :: a)
    rw [List.cons_append] at hsame ⊢
    cases n with
    | succ n => exact ih (Nat.le_of_succ_le_succ hn)
    | zero =>
      cases hfound : if atWord && inWord then none else extent? p (c :: a) with
      | none =>
        rw [allFrom_none hfound, allFrom_none (by rw [hsame, hfound]), ih (Nat.zero_le _),
          List.cons_append]
      | some k =>
        have hk : k ≤ (c :: a).length := by
          split at hfound
          · cases hfound
          · exact extent?_le hfound
        rw [allFrom_some hfound, allFrom_some (by rw [hsame, hfound]),
          ih (by rw [List.length_cons] at hk; omega), List.append_assoc]

theorem mem_of_mem_allFrom {n : Nat} {inWord : Bool} {cs : List Char} {c : Char}
    (h : c ∈ allFrom p atWord new n inWord cs) : c ∈ new ∨ c ∈ cs := by
  induction cs generalizing n inWord with
  | nil => cases n <;> cases h
  | cons d cs ih =>
    cases n with
    | succ n => exact (ih h).imp_right (List.mem_cons_of_mem d)
    | zero =>
      cases hfound : if atWord && inWord then none else extent? p (d :: cs) with
      | none =>
        rw [allFrom_none hfound] at h
        rcases List.mem_cons.1 h with rfl | h
        · exact .inr List.mem_cons_self
        · exact (ih h).imp_right (List.mem_cons_of_mem d)
      | some k =>
        rw [allFrom_some hfound] at h
        rcases List.mem_append.1 h with h | h
        · exact .inl h
        · exact (ih h).imp_right (List.mem_cons_of_mem d)

theorem keepsQuotes_allFrom (hstops : ∀ e, StopsAt p ('\'' :: e)) (hnil : p [] = none)
    (hnew : '\'' ∉ new) : Segment.KeepsQuotes (allFrom p atWord new 0 false) where
  quote _ b := allFrom_quote hstops hnil (Nat.zero_le _) b
  free h := fun hmem => (mem_of_mem_allFrom hmem).elim hnew h
  nil := rfl

/-- A text stays as it is, or the new text is in the result. -/
theorem allFrom_eq_or (p : List Char → Option (List Char)) (atWord : Bool) (new : List Char)
    (inWord : Bool) (cs : List Char) :
    allFrom p atWord new 0 inWord cs = cs ∨ ∀ c ∈ new, c ∈ allFrom p atWord new 0 inWord cs := by
  induction cs generalizing inWord with
  | nil => exact .inl rfl
  | cons d cs ih =>
    cases hfound : if atWord && inWord then none else extent? p (d :: cs) with
    | none =>
      rw [allFrom_none hfound]
      rcases ih (isWord d) with hsame | hnew
      · exact .inl (congrArg (d :: ·) hsame)
      · exact .inr fun c hc => List.mem_cons_of_mem d (hnew c hc)
    | some k =>
      rw [allFrom_some hfound]
      exact .inr fun c hc => List.mem_append_left _ hc

/-- A text in which the pattern is nowhere stays as it is. -/
theorem allFrom_of_none {inWord : Bool} {cs : List Char}
    (h : ∀ c rest, c :: rest <:+ cs → p (c :: rest) = none) :
    allFrom p atWord new 0 inWord cs = cs := by
  induction cs generalizing inWord with
  | nil => rfl
  | cons d cs ih =>
    have hp : extent? p (d :: cs) = none := by
      rw [extent?, h d cs List.suffix_rfl]
      rfl
    rw [allFrom_none (by rw [hp, ite_self]),
      ih fun c rest hrest => h c rest (hrest.trans (List.suffix_cons d cs))]

/-- Where replacing by nothing leaves nothing, the text is made of what the pattern passes. -/
theorem forall_of_allFrom_eq_nil {P : Char → Prop}
    (hp : ∀ {cs rest}, p cs = some rest → Passes P cs rest ∧ rest.length < cs.length) {n : Nat}
    {inWord : Bool} {cs : List Char} (h : allFrom p false [] n inWord cs = []) :
    ∀ c ∈ cs.drop n, P c := by
  induction cs generalizing n inWord with
  | nil => simp
  | cons d cs ih =>
    cases n with
    | succ n => exact ih h
    | zero =>
      cases hfound : extent? p (d :: cs) with
      | none =>
        rw [allFrom_none (by simpa using hfound)] at h
        cases h
      | some k =>
        rw [allFrom_some (by simpa using hfound), List.nil_append] at h
        obtain ⟨rest, hrest, rfl⟩ := Option.map_eq_some_iff.1 hfound
        obtain ⟨⟨used, hcs, hused⟩, hlength⟩ := hp hrest
        have hlater := ih h
        cases used with
        | nil =>
          rw [hcs] at hlength
          exact absurd hlength (Nat.lt_irrefl _)
        | cons c used =>
          rw [List.cons_append] at hcs
          obtain ⟨rfl, rfl⟩ := List.cons.inj hcs
          have hextent : ((d :: (used ++ rest)).length - rest.length) - 1 = used.length := by
            simp only [List.length_cons, List.length_append]
            omega
          rw [hextent, List.drop_left] at hlater
          intro c hc
          rcases List.mem_append.1 (show c ∈ (d :: used) ++ rest from hc) with hc | hc
          · exact hused c hc
          · exact hlater c hc

end SchemaTransfer.Replace
