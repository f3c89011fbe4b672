import SchemaTransfer.Proofs.Replace

/-!
# Replacing at the starts of words

Replacing leaves most of a text as it is, so a scanner that finds something in the new text has
found it in the old one, unless it reads into a replacement. Where replacements neither hold
anything to be found nor end otherwise than what they replace, nothing is left to be replaced.
-/
namespace SchemaTransfer.Replace
open Unicode Scan

/-- Whether a word goes on behind a text. `inWord` tells whether one goes up to its start. -/
def inWordBehind (inWord : Bool) (cs : List Char) : Bool := cs.foldl (fun _ c => isWord c) inWord

/-- What is left of a text from the starts of words on. Outside words every character counts as a
start. -/
def wordStarts (inWord : Bool) : List Char → List (List Char)
  | [] => []
  | c :: cs => (if inWord then [] else [c :: cs]) ++ wordStarts (isWord c) cs

/-- At no start of a word anything is found. -/
def Settled (q : List Char → Option (List Char)) (inWord : Bool) (cs : List Char) : Prop :=
  ∀ rest ∈ wordStarts inWord cs, q rest = none

variable {p q : List Char → Option (List Char)} {new : List Char} {inWord : Bool}
  {cs out : List Char}

theorem settled_cons {c : Char} : Settled q inWord (c :: cs) ↔
    (inWord = false → q (c :: cs) = none) ∧ Settled q (isWord c) cs := by
  cases inWord <;> simp [Settled, wordStarts]

theorem Settled.append_right {a b : List Char} (h : Settled q inWord (a ++ b)) :
    Settled q (inWordBehind inWord a) b := by
  induction a generalizing inWord with
  | nil => exact h
  | cons c a ih => exact ih (settled_cons.1 h).2

/-- A text in which nothing is found that begins in its front part. -/
theorem settled_append {a b : List Char} (ha : ∀ n ∈ wordStarts inWord a, q (n ++ b) = none)
    (hb : Settled q (inWordBehind inWord a) b) : Settled q inWord (a ++ b) := by
  induction a generalizing inWord with
  | nil => exact hb
  | cons c a ih =>
    refine settled_cons.2 ⟨fun hstart => ha (c :: a) ?_, ih (fun n hn => ha n ?_) hb⟩
    · rw [wordStarts, hstart]
      exact List.mem_cons_self
    · exact List.mem_append_right _ hn

theorem allFrom_of_settled (h : Settled p inWord cs) : allFrom p true new 0 inWord cs = cs := by
  induction cs generalizing inWord with
  | nil => rfl
  | cons c cs ih =>
    obtain ⟨hhere, hrest⟩ := settled_cons.1 h
    have hnone : (if true && inWord then none else extent? p (c :: cs)) = none := by
      cases inWord with
      | true => rfl
      | false =>
        rw [extent?, hhere rfl]
        rfl
    rw [allFrom_none hnone, ih hrest]

/-- `out` is what replacing makes of a text. -/
inductive Rewrites (p : List Char → Option (List Char)) (new : List Char) :
    Bool → List Char → List Char → Prop
  | nil (inWord : Bool) : Rewrites p new inWord [] []
  | keep {inWord : Bool} {c : Char} {cs out : List Char}
      (free : inWord = false → p (c :: cs) = none) (rest : Rewrites p new (isWord c) cs out) :
      Rewrites p new inWord (c :: cs) (c :: out)
  | replace {used cs out : List Char} (found : p (used ++ cs) = some cs)
      (rest : Rewrites p new (inWordBehind false used) cs out) :
      Rewrites p new false (used ++ cs) (new ++ out)

/-- A scanner passes some of a text, or finds nothing. -/
def Consumes (p : List Char → Option (List Char)) : Prop :=
  ∀ {cs rest}, p cs = some rest → ∃ c used, cs = c :: used ++ rest

theorem rewrites_allFrom (hp : Consumes p) (n : Nat) (inWord : Bool) (cs : List Char) :
    Rewrites p new (inWordBehind inWord (cs.take n)) (cs.drop n)
      (allFrom p true new n inWord cs) := by
  induction cs generalizing n inWord with
  | nil => cases n <;> exact .nil _
  | cons c cs ih =>
    cases n with
    | succ n => exact ih n (isWord c)
    | zero =>
      have hkeep := ih 0 (isWord c)
      cases inWord with
      | true =>
        rw [allFrom_none (by rfl)]
        exact .keep nofun hkeep
      | false =>
        cases hfound : p (c :: cs) with
        | none =>
          rw [allFrom_none (by simp [extent?, hfound])]
          exact .keep (fun _ => hfound) hkeep
        | some rest =>
          obtain ⟨d, used, hcs⟩ := hp hfound
          rw [List.cons_append] at hcs
          obtain ⟨rfl, rfl⟩ := List.cons.inj hcs
          have hextent : extent? p (c :: (used ++ rest)) = some (used.length + 1) := by
            rw [extent?, hfound, Option.map_some, List.length_cons, List.length_append]
            congr 1
            omega
          rw [allFrom_some (by simpa using hextent)]
          have hrest := ih used.length (isWord c)
          rw [List.take_left, List.drop_left] at hrest
          have hfound : p ((c :: used) ++ rest) = some rest := hfound
          exact .replace hfound hrest

theorem rewrites_words {r : String} (hp : Consumes p) (cs : List Char) :
    Rewrites p r.toList false cs (words p r cs) := rewrites_allFrom hp 0 false cs

theorem isWord_of_isLower : ∀ n < 128, (Char.ofNat n).toLower.isLower = true →
    isWord (Char.ofNat n) = true := by
  decide +kernel

theorem isWord_of_fold {c : Char} (h : (Casing.fold c).isLower = true) : isWord c = true := by
  unfold Casing.fold at h
  dsimp only at h
  split at h
  · next hascii =>
    rw [← Char.ofNat_toNat c] at h ⊢
    rw [Char.ofNat_toNat] at h
    exact isWord_of_isLower c.toNat hascii (by rwa [Char.ofNat_toNat])
  · next hascii =>
    have hcode {n : Nat} (hn : c.toNat = n) : c = Char.ofNat n := by rw [← hn, Char.ofNat_toNat]
    split at h
    · next hdot =>
      rw [Bool.or_eq_true, beq_iff_eq, beq_iff_eq] at hdot
      rcases hdot with hdot | hdot <;> rw [hcode hdot] <;> decide +kernel
    · split at h
      · next hs => rw [hcode (beq_iff_eq.1 hs)]; decide +kernel
      · split at h
        · next hk => rw [hcode (beq_iff_eq.1 hk)]; decide +kernel
        · have hle : c.toNat ≤ 122 := of_decide_eq_true (Bool.and_eq_true_iff.1 h).2
          omega

/-- A keyword of small letters. -/
def isPlainWord (w : String) : Bool := !w.toList.isEmpty && w.toList.all Char.isLower

theorem exists_of_isPlainWord {w : String} (h : isPlainWord w = true) :
    ∃ d ds, w.toList = d :: ds ∧ ∀ e ∈ d :: ds, e.isLower = true := by
  rw [isPlainWord, Bool.and_eq_true, List.all_eq_true] at h
  cases hw : w.toList with
  | nil => simp [hw] at h
  | cons d ds => exact ⟨d, ds, rfl, hw ▸ h.2⟩

theorem inWordBehind_append {inWord : Bool} (a b : List Char) :
    inWordBehind inWord (a ++ b) = inWordBehind (inWordBehind inWord a) b := List.foldl_append

/-- A keyword begins and ends inside a word. -/
theorem keyword?_used {w : String} (hw : isPlainWord w = true) {cs rest : List Char}
    (h : keyword? w cs = some rest) : ∃ c used, cs = c :: used ++ rest ∧ isWord c = true ∧
      ∀ inWord, inWordBehind inWord (c :: used) = true := by
  obtain ⟨d, ds, hletters, hlower⟩ := exists_of_isPlainWord hw
  obtain ⟨used, rfl, hused⟩ := keyword?_eq_some h
  have hword : ∀ c ∈ used, isWord c = true := fun c hc =>
    isWord_of_fold (hlower _ (by rw [← hletters, ← hused]; exact List.mem_map_of_mem hc))
  cases used with
  | nil =>
    rw [hletters] at hused
    cases hused
  | cons c used =>
    refine ⟨c, used, rfl, hword c List.mem_cons_self, fun inWord => ?_⟩
    obtain ⟨init, last, hlast⟩ := List.eq_nil_or_concat (c :: used) |>.resolve_left (by simp)
    rw [List.concat_eq_append] at hlast
    rw [hlast, inWordBehind_append]
    exact hword last (by simp [hlast])

theorem isWord_of_isBlank {c : Char} (h : isBlank c = true) : isWord c = false := by
  by_contra hword
  rw [isBlank_of_isWord (by simpa using hword)] at h
  cases h

/-- What is taken out begins with a word, as does what is put in, and either both end inside a word
or neither does. -/
structure Framed (p : List Char → Option (List Char)) (new : List Char) : Prop where
  head : ∃ c rest, new = c :: rest ∧ isWord c = true
  used {cs rest : List Char} (h : p cs = some rest) : ∃ c used, cs = c :: used ++ rest ∧
    isWord c = true ∧ inWordBehind false (c :: used) = inWordBehind false new

namespace Framed

theorem consumes (h : Framed p new) : Consumes p := fun hfound =>
  let ⟨c, used, hcs, _⟩ := h.used hfound
  ⟨c, used, hcs⟩

theorem used_append (h : Framed p new) {used : List Char} (hfound : p (used ++ cs) = some cs) :
    ∃ c rest, used = c :: rest ∧ isWord c = true ∧
      inWordBehind false used = inWordBehind false new := by
  obtain ⟨c, rest, hused, hc, hend⟩ := h.used hfound
  obtain rfl := List.append_cancel_right hused
  exact ⟨c, rest, rfl, hc, hend⟩

end Framed

namespace Rewrites

/-- Nothing is found in the new text if nothing is found in replacements, and what is found outside
of them was there before. -/
theorem settled (hframed : Framed p new) (h : Rewrites p new inWord cs out)
    (hnew : ∀ n ∈ wordStarts false new, ∀ out, q (n ++ out) = none)
    (hreads : ∀ {c cs out}, Rewrites p new (isWord c) cs out → q (c :: cs) = none →
      q (c :: out) = none)
    (hq : q = p ∨ Settled q inWord cs) : Settled q inWord out := by
  induction h with
  | nil inWord => exact nofun
  | keep free rest ih =>
    refine settled_cons.2 ⟨fun hstart => hreads rest ?_, ih ?_⟩
    · rcases hq with rfl | hq
      · exact free hstart
      · exact (settled_cons.1 hq).1 hstart
    · exact hq.imp_right fun hq => (settled_cons.1 hq).2
  | replace found rest ih =>
    obtain ⟨-, -, -, -, hend⟩ := hframed.used_append found
    refine settled_append (fun n hn => hnew n hn _) ?_
    rw [← hend]
    exact ih (hq.imp_right Settled.append_right)

theorem trimLeft (hframed : Framed p new) (h : Rewrites p new inWord cs out) :
    ∃ inWord', (inWord = false → inWord' = false) ∧
      Rewrites p new inWord' (trimLeft cs) (trimLeft out) := by
  induction h with
  | nil inWord => exact ⟨inWord, id, .nil inWord⟩
  | @keep inWord c cs out free rest ih =>
    by_cases hc : isBlank c = true
    · obtain ⟨inWord', hword, hrest⟩ := ih
      refine ⟨inWord', fun _ => hword (isWord_of_isBlank hc), ?_⟩
      rwa [Unicode.trimLeft, Unicode.trimLeft, List.dropWhile_cons_of_pos hc,
        List.dropWhile_cons_of_pos hc]
    · rw [Bool.not_eq_true] at hc
      rw [trimLeft_cons hc, trimLeft_cons hc]
      exact ⟨inWord, id, .keep free rest⟩
  | @replace used cs out found rest ih =>
    obtain ⟨c, more, rfl, hc, -⟩ := hframed.used_append found
    obtain ⟨d, tail, rfl, hd⟩ := hframed.head
    have hall : Rewrites p (d :: tail) false (c :: more ++ cs) (d :: tail ++ out) :=
      .replace found rest
    rw [List.cons_append, List.cons_append] at hall ⊢
    rw [trimLeft_cons (isBlank_of_isWord hc), trimLeft_cons (isBlank_of_isWord hd)]
    exact ⟨false, id, hall⟩

theorem keywordChars? {ws : List Char} (hws : ∀ w ∈ ws, w.isLower = true)
    (h : Rewrites p new true cs out) {left : List Char}
    (hread : Scan.keywordChars? ws out = some left) :
    ∃ left', Scan.keywordChars? ws cs = some left' ∧ Rewrites p new true left' left := by
  induction ws generalizing cs out with
  | nil =>
    cases hread
    exact ⟨cs, rfl, h⟩
  | cons w ws ih =>
    obtain ⟨hw, hws⟩ := List.forall_mem_cons.1 hws
    cases h with
    | nil => cases hread
    | @keep _ c cs out free rest =>
      rw [Scan.keywordChars?] at hread ⊢
      split at hread
      · next hfold =>
        rw [if_pos hfold]
        have hc : isWord c = true := isWord_of_fold (by rwa [beq_iff_eq.1 hfold])
        exact ih hws (hc ▸ rest) hread
      · cases hread

/-- A keyword of which the first character was kept. -/
theorem keyword? {w : String} (hw : isPlainWord w = true) {c : Char}
    (h : Rewrites p new (isWord c) cs out) {left : List Char}
    (hread : Scan.keyword? w (c :: out) = some left) :
    ∃ left', Scan.keyword? w (c :: cs) = some left' ∧ Rewrites p new true left' left := by
  obtain ⟨d, ds, hletters, hlower⟩ := exists_of_isPlainWord hw
  obtain ⟨hd, hds⟩ := List.forall_mem_cons.1 hlower
  unfold Scan.keyword? at hread ⊢
  rw [hletters, Scan.keywordChars?] at hread ⊢
  split at hread
  · next hfold =>
    rw [if_pos hfold]
    have hc : isWord c = true := isWord_of_fold (by rwa [beq_iff_eq.1 hfold])
    exact Rewrites.keywordChars? hds (hc ▸ h) hread
  · cases hread

/-- A keyword that no replacement begins with. -/
theorem keyword?_of_new {w : String} (hw : isPlainWord w = true)
    (hnew : ∀ out, Scan.keyword? w (new ++ out) = none) (h : Rewrites p new inWord cs out)
    {left : List Char} (hread : Scan.keyword? w out = some left) :
    ∃ left', Scan.keyword? w cs = some left' ∧ Rewrites p new true left' left := by
  cases h with
  | nil =>
    obtain ⟨c, used, hnil, -⟩ := keyword?_used hw hread
    cases hnil
  | keep free rest => exact rest.keyword? hw hread
  | replace found rest =>
    rw [hnew] at hread
    cases hread

theorem blanks? (hframed : Framed p new) (h : Rewrites p new true cs out) {left : List Char}
    (hread : Scan.blanks? out = some left) :
    ∃ left', Scan.blanks? cs = some left' ∧ Rewrites p new false left' left := by
  cases h with
  | nil => cases hread
  | @keep _ c cs out free rest =>
    rw [Scan.blanks?] at hread ⊢
    split at hread
    · next hc =>
      cases hread
      obtain ⟨inWord', hword, hrest⟩ := rest.trimLeft hframed
      rw [if_pos hc]
      exact ⟨_, rfl, hword (isWord_of_isBlank hc) ▸ hrest⟩
    · cases hread

theorem wordEnds (h : Rewrites p new true cs out) :
    Unicode.wordEnds out = Unicode.wordEnds cs := by
  cases h <;> rfl

end Rewrites

end SchemaTransfer.Replace
