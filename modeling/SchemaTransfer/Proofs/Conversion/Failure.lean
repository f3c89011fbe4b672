import SchemaTransfer.Conversion
import SchemaTransfer.Proofs.Dump.Lossless
import SchemaTransfer.Proofs.Except
import SchemaTransfer.Proofs.Load.Traced
import SchemaTransfer.Proofs.Target.Comment

/-!
# What a conversion can fail with

A conversion that fails has a text that says why, with two exceptions. One is a number of more
digits than numerals may have, the other a size whose unit is written as the Kelvin sign. Both can
be seen on a line of the dump. The scripts themselves fail only where a type has no implicit
default.
-/
namespace SchemaTransfer
open Unicode Scan

namespace Dump

theorem beforeComment_isPrefix (quoted : Bool) (cs : List Char) :
    beforeComment quoted cs <+: cs := by
  induction quoted, cs using beforeComment.induct with
  | case1 quoted => exact List.prefix_rfl
  | case2 cs ih =>
    rw [beforeComment, if_pos rfl]
    exact List.cons_prefix_cons.2 ⟨rfl, List.cons_prefix_cons.2 ⟨rfl, ih⟩⟩
  | case3 quoted cs hquoted =>
    rw [beforeComment, if_neg hquoted]
    exact List.nil_prefix
  | case4 quoted c cs hne ih =>
    rw [beforeComment]
    · exact List.cons_prefix_cons.2 ⟨rfl, ih⟩
    · exact hne

theorem stripComment_isPrefix (line : List Char) : stripComment line <+: line :=
  (beforeComment_isPrefix false _).trans (List.rdropWhile_prefix isReturnOrFeed line)

theorem Keeps.exists_isPrefix {xs ys : List (List Char)} (h : Keeps xs ys) :
    ∀ y ∈ ys, ∃ x ∈ xs, y <+: x := by
  intro y hy
  cases h with
  | all => exact ⟨y, hy, List.prefix_rfl⟩
  | @upToTerminator init last blanks =>
    rcases List.mem_append.1 hy with hinit | hlast
    · exact ⟨y, List.mem_append_left _ hinit, List.prefix_rfl⟩
    · rw [List.mem_singleton.1 hlast]
      exact ⟨_, List.mem_append_right _ (List.mem_singleton_self _), List.prefix_append _ _⟩
  | withoutLast => exact ⟨y, List.mem_append_left _ hy, List.prefix_rfl⟩

/-- Each line of a statement is the front of a line of the dump. -/
theorem exists_isPrefix_of_mem_statements {lines : List (List Char)} :
    ∀ line ∈ (statements lines).flatMap (·.statement.lines), ∃ raw ∈ lines, line <+: raw := by
  intro line hline
  obtain ⟨t, ht, hline⟩ := List.mem_flatMap.1 hline
  obtain ⟨groups, hgroups, hread, -⟩ := statements_lossless lines
  have hfirst : ((statements lines).zip groups).map Prod.fst = statements lines :=
    List.map_fst_zip hread.length_eq.le
  rw [← hfirst] at ht
  obtain ⟨⟨t, group⟩, hzip, rfl⟩ := List.mem_map.1 ht
  have hgroup : t.ReadFrom group := (List.forall₂_iff_zip.1 hread).2 hzip
  obtain ⟨text, htext, hprefix⟩ := hgroup.keeps.exists_isPrefix line hline
  obtain ⟨l, hl, rfl⟩ := List.mem_map.1 htext
  have hcontent : l ∈ contentFrom 0 lines := by
    rw [contentFrom_eq_filter, ← content, ← hgroups]
    exact List.mem_flatten.2 ⟨group, (List.of_mem_zip hzip).2, hl⟩
  obtain ⟨raw, hraw, hkept⟩ := mem_contentFrom hcontent
  exact ⟨raw, hraw, hprefix.trans (hkept ▸ stripComment_isPrefix raw)⟩

end Dump

/-- A column is to have the implicit default value of a type that has none. -/
structure Column.LacksDefault (c : Column) (failure : Failure) : Prop where
  default : c.default = some .implicit
  type : DefaultValue.implicit? c.dumpType = none
  failure : failure = .noImplicitDefault c.dumpType

namespace Before

variable {failure : Failure}

theorem column_error {c : Column} (h : column c = .error failure) : c.LacksDefault failure := by
  have hvalue := map_eq_error h
  unfold Column.defaultValue? at hvalue
  split at hvalue
  · cases hvalue
  · next hdefault =>
    have himplicit := map_eq_error hvalue
    unfold DefaultValue.implicit at himplicit
    split at himplicit
    · cases himplicit
    · next htype => exact ⟨hdefault, htype, (Except.error.inj himplicit).symm⟩
  · cases hvalue

theorem columns_error {cs : List Column} (h : columns cs = .error failure) :
    ∃ c ∈ cs, c.LacksDefault failure := by
  induction cs with
  | nil => cases h
  | cons c cs ih =>
    rw [columns] at h
    rcases bind_eq_error h with hcolumn | ⟨item, -, h⟩
    · exact ⟨c, List.mem_cons_self, column_error hcolumn⟩
    · rcases bind_eq_error h with hrest | ⟨items, -, h⟩
      · obtain ⟨d, hd, hlacks⟩ := ih hrest
        exact ⟨d, List.mem_cons_of_mem _ hd, hlacks⟩
      · cases h

theorem tables_error {withTablespaces : Bool} {l : List (Schema × Table)} {e : Emission}
    (h : ((tables withTablespaces l).run e).1 = .error failure) :
    ∃ x ∈ l, ∃ c ∈ x.2.columns, c.LacksDefault failure := by
  induction l generalizing e with
  | nil => cases h
  | cons x rest ih =>
    obtain ⟨s, t⟩ := x
    obtain ⟨e', hrun⟩ := run_tables_cons s t rest e
    rw [hrun] at h
    rcases bind_eq_error h with htable | ⟨items, -, h⟩
    · obtain ⟨c, hc, hlacks⟩ := columns_error (map_eq_error htable)
      exact ⟨(s, t), List.mem_cons_self, c, (List.mergeSort_perm _ _).mem_iff.1 hc, hlacks⟩
    · obtain ⟨x, hx, hlacks⟩ := ih (map_eq_error h)
      exact ⟨x, List.mem_cons_of_mem _ hx, hlacks⟩

end Before

/-- Only the implicit default of a column can be missing. -/
theorem emitScripts_error {withTablespaces : Bool} {c : Catalog} {e : Emission} {failure : Failure}
    (h : ((emitScripts withTablespaces c).run e).1 = .error failure) :
    ∃ x ∈ c.tables, ∃ k ∈ x.2.columns, k.LacksDefault failure := by
  cases hbefore : ((emitBefore withTablespaces c).run e).1 with
  | ok before =>
    obtain ⟨scripts, e', hscripts, -⟩ := emitScripts_of_before hbefore
    rw [hscripts] at h
    cases h
  | error failure' =>
    obtain ⟨e', hrun⟩ := run_emitBefore withTablespaces c e
    rw [hbefore] at hrun
    have hlacks := Before.tables_error (map_eq_error hrun.symm)
    unfold emitScripts at h
    rw [Emit.run_bind, hbefore] at h
    rwa [← Except.error.inj h]

theorem convert_tracedTo {withTablespaces : Bool} {verdicts : List Verdict}
    {lines : List (List Char)} {failure : Failure}
    (h : (convert withTablespaces verdicts lines).outcome = .error failure) :
    failure.TracedTo lines := by
  unfold convert at h
  split at h
  · next failure' hrun =>
    obtain rfl : failure' = failure := Except.error.inj h
    have htraced := Load.traced_takeAll {} (Dump.statements lines) (congrArg (·.2.2) hrun)
    refine htraced.mono fun line hline => ?_
    obtain ⟨raw, hraw, hprefix⟩ := Dump.exists_isPrefix_of_mem_statements line hline
    exact ⟨raw, hraw, hprefix.isInfix⟩
  · obtain ⟨x, -, k, -, hlacks⟩ := emitScripts_error (map_eq_error h)
    rw [hlacks.failure]
    trivial

/-- Whether a conversion gives its scripts or a text that says why it does not. -/
def Conversion.Result.answers (r : Conversion.Result) : Bool :=
  match r.outcome with
  | .ok _ => true
  | .error failure => failure.message?.isSome

/-- The only failures without a text are a number that is too long and a unit that is written as
the Kelvin sign, and either stands on a line of the dump. -/
theorem convert_answers (withTablespaces : Bool) (verdicts : List Verdict)
    (lines : List (List Char)) :
    (convert withTablespaces verdicts lines).answers = true ∨
      ((convert withTablespaces verdicts lines).outcome = .error .longNumber ∧
        ∃ line ∈ lines, LongRow (line.filter (· != '"'))) ∨
      ((convert withTablespaces verdicts lines).outcome = .error .unknownUnit ∧
        ∃ line ∈ lines, kelvinSign ∈ line) := by
  cases houtcome : (convert withTablespaces verdicts lines).outcome with
  | ok r =>
    refine .inl ?_
    rw [Conversion.Result.answers, houtcome]
  | error failure =>
    have htraced := convert_tracedTo houtcome
    cases failure with
    | longNumber => exact .inr (.inl ⟨rfl, htraced⟩)
    | unknownUnit => exact .inr (.inr ⟨rfl, htraced⟩)
    | unrecognized cause | malformed cause | noImplicitDefault type =>
      refine .inl ?_
      rw [Conversion.Result.answers, houtcome]
      rfl

/-- Not every failure has a text: the unit of this size is written as the Kelvin sign. -/
theorem convert_kelvinSign : ¬∀ (withTablespaces : Bool) (verdicts : List Verdict)
    (lines : List (List Char)), (convert withTablespaces verdicts lines).answers = true := by
  intro h
  have hanswers := h false []
    ["CREATE TABLE \"S\".\"T\"  (".toList, "  \"A\" CLOB(1\u212a) );".toList]
  revert hanswers
  decide +kernel

end SchemaTransfer
