import SchemaTransfer.Proofs.Parentheses
import SchemaTransfer.Proofs.Target.Constraint

/-!
# Conditions of check constraints

A condition has to stand between parentheses. Those that it brings with it are told by its first and
its last character, which need not be a pair.
-/
namespace SchemaTransfer
open Emit Segment

/-- A condition between parentheses: new ones, or its own ones if they are a pair. -/
def EnclosedIn (text condition : List Char) : Prop :=
  ∃ inner, Encloses text inner ∧ (inner = condition ∨ Encloses condition inner)

/-- A condition that begins and ends with a parenthesis, though the first one is closed before the
last one. -/
def LooksEnclosed (condition : List Char) : Prop :=
  condition.head? = some '(' ∧ condition.getLast? = some ')' ∧ ClosesEarly condition

theorem exists_wrapped {cs : List Char} (hhead : cs.head? = some '(')
    (hlast : cs.getLast? = some ')') : ∃ inner, cs = '(' :: (inner ++ [')']) := by
  obtain ⟨rest, rfl⟩ := List.head?_eq_some_iff.1 hhead
  obtain rfl | ⟨inner, c, rfl⟩ := List.eq_nil_or_concat' rest
  · cases hlast
  · rw [← List.cons_append, List.getLast?_concat] at hlast
    exact ⟨inner, by rw [Option.some.inj hlast]⟩

namespace Unsure

theorem enclosed_eq {condition : String} (hhead : condition.toList.head? = some '(')
    (hlast : condition.toList.getLast? = some ')') : enclosed condition = condition := by
  simp [enclosed, hhead, hlast]

theorem enclosed_eq_wrap {condition : String}
    (h : ¬(condition.toList.head? = some '(' ∧ condition.toList.getLast? = some ')')) :
    (enclosed condition).toList = '(' :: (condition.toList ++ [')']) := by
  have hbare : enclosed condition = "(" ++ condition ++ ")" :=
    if_neg (by simpa only [Bool.and_eq_true, decide_eq_true_eq] using h)
  rw [hbare, String.toList_append, String.toList_append]
  rfl

/-- A balanced condition is put between parentheses unless it only looks as if it stood between
them. -/
theorem enclosedIn_iff {condition : String} (h : Balanced condition.toList) :
    EnclosedIn (enclosed condition).toList condition.toList ↔
      ¬LooksEnclosed condition.toList := by
  by_cases hparentheses : condition.toList.head? = some '(' ∧ condition.toList.getLast? = some ')'
  · obtain ⟨hhead, hlast⟩ := hparentheses
    obtain ⟨inner, hinner⟩ := exists_wrapped hhead hlast
    have hlooks : LooksEnclosed condition.toList ↔ ClosesEarly condition.toList :=
      ⟨fun h => h.2.2, fun h => ⟨hhead, hlast, h⟩⟩
    rw [enclosed_eq hhead hlast, hlooks, hinner]
    rw [hinner] at h
    rw [← balanced_inner_iff h]
    constructor
    · rintro ⟨other, ⟨hother, hbalanced⟩, -⟩
      obtain ⟨rfl, -⟩ := List.append_inj' (List.cons.inj hother).2 rfl
      exact hbalanced
    · exact fun hbalanced => ⟨inner, ⟨rfl, hbalanced⟩, .inr ⟨rfl, hbalanced⟩⟩
  · refine iff_of_true ?_ fun hlooks => hparentheses ⟨hlooks.1, hlooks.2.1⟩
    exact ⟨condition.toList, ⟨enclosed_eq_wrap hparentheses, h⟩, .inl rfl⟩

end Unsure

/-- The statement of an item that adds a check constraint. -/
def Item.checkStatement? : Item → Option String
  | addCheck table name condition => some (addCheck table name condition).render
  | _ => none

/-- The statement that adds a check constraint, from the text between its keyword and its
semicolon. -/
def checkStatement (x : Schema × Table) (k : Check) (text : String) : String :=
  Item.alter (tableName x) ++ " ADD" ++ Item.clause " CONSTRAINT" (given k.name) ++ " CHECK " ++
    text ++ ";"

theorem checkStatement_inj {x : Schema × Table} {k : Check} {text text' : String}
    (h : checkStatement x k text = checkStatement x k text') : text = text' := by
  simp only [checkStatement, String.append_left_inj, String.append_right_inj] at h
  exact h

theorem Unsure.picksChecks_checkStatement? (c : Catalog) :
    PicksChecks c Item.checkStatement? where
  preamble := by decide
  validate _ _ := rfl
  unparsable _ := rfl
  searchPath _ := rfl
  createView _ _ _ := rfl
  behind := by rintro _ ⟨⟩ <;> rfl

/-- Whatever was emitted before, the check constraints of a catalog are added in their order, each
with its condition. A condition that is balanced outside its literals stands between two parentheses
of which the second one closes the first one, exactly unless it begins and ends with parentheses
that are not a pair. -/
theorem checks_enclosed (c : Catalog) (e : Emission) :
    ((emitUnsure c).run e).1.filterMap Item.checkStatement? = (c.tables.flatMap fun x =>
      x.2.checks.map fun k => checkStatement x k (Unsure.enclosed k.condition)) ∧
    ∀ x ∈ c.tables, ∀ k ∈ x.2.checks, Balanced k.condition.toList →
      (EnclosedIn (Unsure.enclosed k.condition).toList k.condition.toList ↔
        ¬LooksEnclosed k.condition.toList) := by
  refine ⟨?_, fun x _ k _ => Unsure.enclosedIn_iff⟩
  rw [(Unsure.picksChecks_checkStatement? c).yields_emitUnsure e]
  congr 1
  funext x
  exact List.filterMap_eq_map_iff_forall_eq_some.2 fun k _ => rfl

/-- Two conditions in parentheses, one behind the other. -/
def twoParts : String := "(A < 0) OR (A > 9)"

theorem looksEnclosed_twoParts : LooksEnclosed twoParts.toList :=
  ⟨rfl, rfl, "(A < 0)".toList, " OR (A > 9)".toList, by decide +kernel, by decide, by decide,
    by decide⟩

/-- A table with a condition that has a parenthesis in a literal, one that brings its own
parentheses, and one that only looks so. -/
def checkedTable : Table :=
  { name := "T"
    constraints := [.check { condition := "A <> '('" }, .check { condition := "(A > 0)" },
      .check { condition := twoParts, name := some "C" }] }

def checkedSchema : Schema := { name := "S", tables := Keyed.empty.insert "T" checkedTable }

def checkedCatalog : Catalog := { schemas := Keyed.empty.insert "S" checkedSchema }

theorem checks_enclosed_checkedCatalog :
    ((emitUnsure checkedCatalog).run {}).1.filterMap Item.checkStatement? =
      ["ALTER TABLE s.t ADD CHECK (A <> '(');", "ALTER TABLE s.t ADD CHECK (A > 0);",
        "ALTER TABLE s.t ADD CONSTRAINT c CHECK (A < 0) OR (A > 9);"] ∧
    EnclosedIn "(A <> '(')".toList "A <> '('".toList ∧
    EnclosedIn "(A > 0)".toList "(A > 0)".toList ∧
    ¬EnclosedIn twoParts.toList twoParts.toList := by
  have htables : checkedCatalog.tables = [(checkedSchema, checkedTable)] := by decide +kernel
  have hchecks : checkedTable.checks = [{ condition := "A <> '('" }, { condition := "(A > 0)" },
      { condition := twoParts, name := some "C" }] := rfl
  obtain ⟨hstatements, henclosed⟩ := checks_enclosed checkedCatalog {}
  simp only [htables, hchecks, List.forall_mem_cons] at henclosed
  obtain ⟨⟨hbare, hpair, hlooks, -⟩, -⟩ := henclosed
  refine ⟨by rw [hstatements]; decide +kernel, (hbare (by decide +kernel)).2 ?_,
    (hpair (by decide +kernel)).2 ?_, fun h => (hlooks (by decide +kernel)).1 h ?_⟩
  · exact fun h => absurd h.1 (by decide)
  · have hinner : Balanced "A > 0".toList := by decide +kernel
    exact fun h => (balanced_inner_iff hinner.wrap).1 hinner h.2.2
  · exact looksEnclosed_twoParts

/-- The parentheses of the two parts of a condition are taken for a pair. -/
theorem checks_enclosed_of_two_parts : ¬∀ (withTablespaces : Bool) (verdicts : List Verdict)
    (lines : List (List Char)) (r : Conversion),
    (convert withTablespaces verdicts lines).outcome = .ok r →
    ∀ x ∈ r.session.catalog.tables, ∀ k ∈ x.2.checks, Balanced k.condition.toList →
      ∃ text, checkStatement x k text ∈ r.scripts.unsure.filterMap Item.checkStatement? ∧
        EnclosedIn text.toList k.condition.toList := by
  intro h
  let parts : List (List Char) :=
    ["CREATE TABLE \"S\".\"T\"  (", "  \"A\" INTEGER );",
      "ALTER TABLE \"S\".\"T\"", "  ADD CONSTRAINT \"C\" CHECK", "    (A < 0) OR (A > 9)",
      "  ENFORCED;"].map String.toList
  have hrun : ((convert false [] parts).outcome.toOption.map fun r =>
      (r.session.catalog.tables.map fun x => (tableName x, x.2.checks),
        r.scripts.unsure.filterMap Item.checkStatement?)) =
      some ([(⟨"S", "T"⟩, [{ condition := twoParts, name := some "C" }])],
        ["ALTER TABLE s.t ADD CONSTRAINT c CHECK (A < 0) OR (A > 9);"]) := by
    decide +kernel
  obtain ⟨r, hr, hrun⟩ := exists_ok_of_toOption_map hrun
  obtain ⟨htables, hstatements⟩ := Prod.mk.inj hrun
  obtain ⟨x, hx, hname⟩ := List.mem_map.1 (htables.symm ▸ List.mem_singleton_self _)
  obtain ⟨htable, hchecks⟩ := Prod.mk.inj hname
  obtain ⟨text, hmem, henclosed⟩ := h false [] parts r hr x hx
    { condition := twoParts, name := some "C" } (by simp [hchecks]) (by decide +kernel)
  have hsame : checkStatement x { condition := twoParts, name := some "C" } text =
      checkStatement x { condition := twoParts, name := some "C" } twoParts := by
    rw [hstatements, List.mem_singleton] at hmem
    rw [hmem, checkStatement, htable]
    decide +kernel
  rw [checkStatement_inj hsame] at henclosed
  have hkept : Unsure.enclosed twoParts = twoParts := Unsure.enclosed_eq rfl rfl
  have hlooks := Unsure.enclosedIn_iff (show Balanced twoParts.toList by decide +kernel)
  rw [hkept] at hlooks
  exact hlooks.1 henclosed looksEnclosed_twoParts

end SchemaTransfer
