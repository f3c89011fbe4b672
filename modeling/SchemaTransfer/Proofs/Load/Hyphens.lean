import SchemaTransfer.Proofs.Casing
import SchemaTransfer.Proofs.Dump.TypedText
import SchemaTransfer.Proofs.Load.Down
import SchemaTransfer.Proofs.Load.Names

/-!
# Names with hyphens

A hyphen in a name is dropped, and each name that loses one is reported once. The names are
reported as they are met on the lines of a statement, before anything is done with them, so that at
any time every name in the catalog that has a hyphen has been reported. That a name is the current
schema or the owner of another object makes no difference, as it stood on a first line then.
-/
namespace SchemaTransfer.Load
open Unicode Dump Scan FirstLine

/-- What a user types without quotes has no hyphen. -/
def IsTyped : NameToken → Prop
  | .plain text => '-' ∉ text
  | .quoted _ => True

/-- The names that a user typed. -/
def typedTokens : Form → List NameToken
  | .createView schema name _ => name :: schema.toList
  | .createTrigger schema name _ => name :: schema.toList
  | .createFunction schema name _ => name :: schema.toList
  | _ => []

theorem isTyped_of_token? {cs rest : List Char} {token : NameToken}
    (h : token? cs = some (token, rest)) : IsTyped token := by
  unfold token? at h
  split at h
  · obtain ⟨p, -, hp⟩ := Option.map_eq_some_iff.1 h
    cases hp
    trivial
  · split at h
    · next c more hstarts =>
      cases h
      intro hhyphen
      rcases List.mem_cons.1 hhyphen with rfl | hhyphen
      · exact absurd hstarts (by decide +kernel)
      · exact absurd (List.mem_takeWhile_imp hhyphen) (by decide +kernel)
    · cases h
  · cases h

theorem isTyped_of_tokens? {cs rest : List Char} {schema : Option NameToken} {name : NameToken}
    (h : tokens? cs = some ((schema, name), rest)) : ∀ token ∈ name :: schema.toList,
      IsTyped token := by
  unfold tokens? at h
  obtain ⟨⟨first, behind⟩, hfirst, h⟩ := Option.bind_eq_some_iff.1 h
  dsimp only at h
  split at h
  · next second rest' hsecond =>
    cases h
    obtain ⟨cs', -, hsecond⟩ := Option.bind_eq_some_iff.1 hsecond
    simp [isTyped_of_token? hfirst, isTyped_of_token? hsecond]
  · cases h
    simp [isTyped_of_token? hfirst]

theorem isTyped_of_recognize (object : TypedObject) {cs : List Char} {form : Form}
    (h : object.recognize cs = some form) : ∀ token ∈ typedTokens form, IsTyped token := by
  rw [object.recognize_eq] at h
  obtain ⟨⟨⟨schema, name⟩, rest⟩, htyped, h⟩ := Option.bind_eq_some_iff.1 h
  obtain ⟨kept, -, rfl⟩ := Option.map_eq_some_iff.1 h
  have htokens : typedTokens (object.form schema name kept) = name :: schema.toList := by
    cases object <;> rfl
  simp only [typed?, Option.bind_eq_bind, Option.bind_eq_some_iff] at htyped
  obtain ⟨_, -, _, -, _, -, cs', -, htokens?⟩ := htyped
  rw [htokens]
  exact isTyped_of_tokens? htokens?

theorem isTyped_of_ofLine? {line : List Char} {form : Form} (h : Form.ofLine? line = some form) :
    ∀ token ∈ typedTokens form, IsTyped token := by
  cases form with
  | createView schema name first =>
    exact isTyped_of_recognize .view
      (recognizes_of_ofLine? (by simp [recognizers, kinds, Form.kind, TypedObject.recognize]) h)
  | createTrigger schema name first =>
    exact isTyped_of_recognize .trigger
      (recognizes_of_ofLine? (by simp [recognizers, kinds, Form.kind, TypedObject.recognize]) h)
  | createFunction schema name first =>
    exact isTyped_of_recognize .function
      (recognizes_of_ofLine? (by simp [recognizers, kinds, Form.kind, TypedObject.recognize]) h)
  | _ => exact List.forall_mem_nil _

/-- A written name has been reported, if it had to be. -/
def Heard (dashed : List String) (written : String) : Prop :=
  '-' ∈ (reportedName written).toList → reportedName written ∈ dashed

/-- A name with a hyphen and without a double quote has been reported, up to blanks around it. -/
def IsReported (dashed : List String) (name : String) : Prop :=
  '-' ∈ name.toList → '"' ∉ name.toList → ∃ r ∈ dashed, trim r.toList = trim name.toList

theorem IsReported.mono {dashed more : List String} (hmore : ∀ n ∈ dashed, n ∈ more) {name : String}
    (h : IsReported dashed name) : IsReported more name := by
  intro hhyphen hquote
  obtain ⟨r, hr, hsame⟩ := h hhyphen hquote
  exact ⟨r, hmore r hr, hsame⟩

theorem dropWhile_quotes {cs : List Char} (h : '"' ∉ cs) : cs.dropWhile (· == '"') = cs := by
  cases cs with
  | nil => rfl
  | cons c cs =>
    refine List.dropWhile_cons_of_neg ?_
    simpa using fun hc : c = '"' => h (hc ▸ List.mem_cons_self)

theorem reverse_dropWhile_quotes {cs : List Char} (h : '"' ∉ cs) :
    (cs.reverse.dropWhile (· == '"')).reverse = cs := by
  rw [dropWhile_quotes (by rwa [List.mem_reverse]), List.reverse_reverse]

theorem unquoted_of_quoteFree {cs : List Char} (h : '"' ∉ cs) :
    reportedName.unquoted cs = cs := by
  rw [reportedName.unquoted, dropWhile_quotes h, reverse_dropWhile_quotes h]

/-- Quotes around a name that has none are left out. -/
theorem unquoted_inQuotes {cs : List Char} (h : '"' ∉ cs) :
    reportedName.unquoted (inQuotes cs) = cs := by
  cases cs with
  | nil => rfl
  | cons c cs =>
    have hc : c ≠ '"' := fun hquote => h (hquote ▸ List.mem_cons_self)
    have hfront : (inQuotes (c :: cs)).dropWhile (· == '"') = c :: cs ++ ['"'] := by
      rw [inQuotes, List.dropWhile_cons_of_pos rfl]
      exact List.dropWhile_cons_of_neg (by simpa using hc)
    rw [reportedName.unquoted, hfront, List.reverse_append, List.reverse_singleton,
      List.singleton_append, List.dropWhile_cons_of_pos rfl, reverse_dropWhile_quotes h]

theorem mem_trimRight {c : Char} (hc : isBlank c = false) {cs : List Char} (h : c ∈ cs) :
    c ∈ trimRight cs := by
  obtain ⟨blanks, hblanks, hcs⟩ := exists_trimRight_append cs
  rw [hcs, List.mem_append] at h
  refine h.resolve_right fun hmem => ?_
  have hblank := List.all_eq_true.1 hblanks c hmem
  rw [hc] at hblank
  cases hblank

theorem mem_trim {c : Char} (hc : isBlank c = false) {cs : List Char} (h : c ∈ cs) :
    c ∈ trim cs := by
  refine mem_trimRight hc ?_
  rw [← List.takeWhile_append_dropWhile (p := isBlank) (l := cs), List.mem_append] at h
  refine h.resolve_left fun hmem => ?_
  rw [List.mem_takeWhile_imp hmem] at hc
  cases hc

theorem trim_inQuotes (cs : List Char) : trim (inQuotes cs) = inQuotes cs := by
  rw [trim, inQuotes, trimLeft_cons (by decide), ← List.cons_append, trimRight_eq_rdropWhile,
    List.rdropWhile_concat_neg _ _ _ (by decide)]

theorem toList_reportedName {name : String} (h : '"' ∉ name.toList) :
    (reportedName name).toList = trim name.toList := by
  have htrim : '"' ∉ trim name.toList := fun hquote =>
    h ((List.dropWhile_sublist _).mem ((List.rdropWhile_prefix isBlank _).mem hquote))
  rw [reportedName, String.toList_ofList, unquoted_of_quoteFree htrim, trim,
    trimRight_eq_rdropWhile, trimRight_eq_rdropWhile, List.rdropWhile_idempotent]

theorem isReported_of_heard {dashed : List String} {name : String} (h : Heard dashed name) :
    IsReported dashed name := by
  intro hhyphen hquote
  have hname := toList_reportedName hquote
  refine ⟨reportedName name, h ?_, ?_⟩
  · rw [hname]
    exact mem_trim (by decide) hhyphen
  · rw [hname, trim_trim]

theorem isReported_of_heardToken {dashed : List String} {token : NameToken} (htyped : IsTyped token)
    (h : Heard dashed token.written) : IsReported dashed token.name := by
  intro hhyphen hquote
  cases token with
  | plain text =>
    rw [NameToken.name, String.toList_ofList] at hhyphen
    exact absurd (Casing.mem_of_mem_upper (by decide) (by decide) hhyphen) htyped
  | quoted text =>
    rw [NameToken.name, String.toList_ofList] at hhyphen hquote
    have htext : '"' ∉ text := fun hmem => hquote (mem_trimRight (by decide) hmem)
    have hname : reportedName (NameToken.quoted text).written = (NameToken.quoted text).name := by
      rw [reportedName, NameToken.written, String.toList_ofList, List.cons_append]
      rw [← inQuotes, trim_inQuotes, unquoted_inQuotes htext]
      rfl
    refine ⟨_, h ?_, ?_⟩
    · rwa [hname, NameToken.name, String.toList_ofList]
    · rw [hname]

/-- The name that a notice reports for its hyphens. -/
def dashedName? : Notice → Option String
  | .dashDropped name => some name
  | _ => none

def dashedNames (notices : List Notice) : List String := notices.filterMap dashedName?

/-- The notices among some events are not about hyphens. -/
def Quiet (events : List Event) : Prop := ∀ n, .notice n ∈ events → dashedName? n = none

theorem Quiet.append {a b : List Event} (ha : Quiet a) (hb : Quiet b) : Quiet (a ++ b) :=
  fun n hn => (List.mem_append.1 hn).elim (ha n) (hb n)

theorem quiet_names (names : List String) : Quiet (names.map .name) := by
  intro n hn
  obtain ⟨name, -, hname⟩ := List.mem_map.1 hn
  cases hname

theorem quiet_notices {notices : List Notice} (h : ∀ n ∈ notices, dashedName? n = none) :
    Quiet (notices.map .notice) := by
  intro n hn
  obtain ⟨m, hm, hsame⟩ := List.mem_map.1 hn
  cases hsame
  exact h n hm

/-- What is reported comes on top of what was reported before. -/
theorem report_fst {dashed : List String} {events : List Event} (h : Quiet events) :
    (report dashed events).1 = (dashedNames (report dashed events).2).reverse ++ dashed := by
  induction events generalizing dashed with
  | nil => rfl
  | cons e events ih =>
    have hrest : Quiet events := fun n hn => h n (List.mem_cons_of_mem _ hn)
    cases e with
    | notice n =>
      have hn : dashedName? n = none := h n List.mem_cons_self
      rw [report]
      dsimp only
      rw [dashedNames, List.filterMap_cons_none hn]
      exact ih hrest
    | name written =>
      rw [report]
      dsimp only
      split
      · dsimp only
        have hnew : dashedName? (.dashDropped (reportedName written)) = some _ := rfl
        rw [ih hrest, dashedNames, dashedNames, List.filterMap_cons_some hnew, List.reverse_cons,
          List.append_assoc, List.singleton_append]
      · exact ih hrest

theorem mem_report {dashed : List String} {name : String} (h : name ∈ dashed)
    (events : List Event) : name ∈ (report dashed events).1 := by
  induction events generalizing dashed with
  | nil => exact h
  | cons e events ih =>
    cases e with
    | notice n => exact ih h
    | name written =>
      rw [report]
      dsimp only
      split
      · exact ih (List.mem_cons_of_mem _ h)
      · exact ih h

theorem heard_report (dashed : List String) {events : List Event} {written : String}
    (h : .name written ∈ events) : Heard (report dashed events).1 written := by
  intro hhyphen
  induction events generalizing dashed with
  | nil => cases h
  | cons e events ih =>
    rcases List.mem_cons.1 h with rfl | hrest
    · rw [report]
      dsimp only
      split
      · exact mem_report List.mem_cons_self events
      · next hknown =>
        have hdashed : reportedName written ∈ dashed := by
          simpa [isNewlyDashed, hhyphen] using hknown
        exact mem_report hdashed events
    · cases e with
      | notice n => exact ih dashed hrest
      | name other =>
        rw [report]
        dsimp only
        split
        · exact ih _ hrest
        · exact ih _ hrest

/-- No name is reported twice, and all that are reported have a hyphen. -/
structure Dashed (names : List String) : Prop where
  nodup : names.Nodup
  hyphen : ∀ n ∈ names, '-' ∈ n.toList

theorem Dashed.report {dashed : List String} (h : Dashed dashed) (events : List Event) :
    Dashed (report dashed events).1 := by
  induction events generalizing dashed with
  | nil => exact h
  | cons e events ih =>
    cases e with
    | notice n => exact ih h
    | name written =>
      rw [Load.report]
      dsimp only
      split
      · next hnew =>
        obtain ⟨hhyphen, hfresh⟩ := (Bool.and_eq_true_iff ..).1 hnew
        refine ih ⟨List.nodup_cons.2 ⟨?_, h.nodup⟩, List.forall_mem_cons.2 ⟨?_, h.hyphen⟩⟩
        · simpa using hfresh
        · exact List.contains_iff_mem.1 hhyphen
      · exact ih h

end SchemaTransfer.Load
