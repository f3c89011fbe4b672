import SchemaTransfer.Manifest
import SchemaTransfer.Proofs.Load.Run

/-!
# The order of statements

Two statements next to each other that are about different objects may change places: the dump
still converts, to the same scripts. The forms whose order counts for more than their objects are
left out: those that set the current schema or path or depend on it, and comments on triggers.
-/
namespace SchemaTransfer
open Load Dump

/-- The objects that a statement touches, for the forms that are bound to no other place. -/
def Dump.Form.objects? : Form → Option (List Object)
  | .createTablespace name => some [.tablespace name]
  | .createRole name => some [.role name]
  | .commentRole name _ => some [.role name]
  | .createSchema name owner => some (.part name .owner :: (given owner).toList.map .role)
  | .createSequence schema name => some [.part schema (.sequence name)]
  | .restartSequence schema name _ => some [.part schema (.sequence name)]
  | .createTable schema name => some [.relation schema name]
  | .alterTable schema name => some [.relation schema name]
  | .restartIdentity schema owner _ _ => some [.relation schema owner]
  | .createIndex _ _ _ schema owner => some [.relation schema owner]
  | .commentColumn schema owner _ _ => some [.relation schema owner]
  | .commentTable schema name _ => some [.relation schema name]
  | .createDomain schema name _ => some [.part schema (.domain name)]
  | _ => none

namespace Load

variable {form f g : Form} {xs ys : List Object}

theorem nextContext_of_objects? (h : form.objects? = some xs) (context : Context) :
    nextContext context form = context := by
  cases form <;> first | rfl | cases h

/-- A statement edits the objects it touches. -/
theorem edits_objects (h : form.objects? = some xs) (context : Context)
    (rest : List (List Char)) : (edits context rest form).map Edit.object = xs := by
  cases form with
  | createSchema name owner =>
    cases h
    rw [edits]
    cases given owner <;> rfl
  | ignored => cases h
  | setSchema schema => cases h
  | setPath path => cases h
  | createView schema name rest => cases h
  | createTrigger schema name rest => cases h
  | commentTrigger schema name text => cases h
  | createFunction schema name rest => cases h
  | _ => exact Option.some.inj h

theorem advance_of_objects? (p : Catalog × Context) {s : Statement}
    (hform : Form.ofLine? s.first = some form) (h : form.objects? = some xs) :
    advance p s = (p.1.editAll (edits p.2 s.rest form)).map (·, p.2) := by
  unfold advance
  rw [hform, Option.bind_some, nextContext_of_objects? h]

theorem advance_comm (p : Catalog × Context) {s t : Statement}
    (hs : Form.ofLine? s.first = some f) (ht : Form.ofLine? t.first = some g)
    (hf : f.objects? = some xs) (hg : g.objects? = some ys) (h : xs.Disjoint ys) :
    ((advance p s).bind fun q => advance q t) = (advance p t).bind fun q => advance q s := by
  have hcomm := p.1.editAll_comm (edits p.2 s.rest f) (edits p.2 t.rest g)
    (by rwa [edits_objects hf, edits_objects hg])
  have hmap := congrArg (Option.map (·, p.2)) hcomm
  simp only [advance_of_objects? _ hs hf, advance_of_objects? _ ht hg, Option.bind_map,
    Function.comp_def]
  rwa [Option.map_bind, Option.map_bind] at hmap

end Load

/-- Two neighbouring statements, each ended by its terminator, that touch different objects may
change places. The dump still converts, and all that comes of it is the same: the scripts, the
names given out, the counts and the manifest. -/
theorem convert_swap (withTablespaces : Bool) (verdicts : List Verdict)
    (pre a b post : List (List Char)) {s t : Taken} {f g : Form} {xs ys : List Object}
    {r : Conversion} (hpre : Ends pre) (ha : Ends a) (hb : Ends b) (hs : statements a = [s])
    (ht : statements b = [t]) (hf : Form.ofLine? s.statement.first = some f)
    (hg : Form.ofLine? t.statement.first = some g) (hxs : f.objects? = some xs)
    (hys : g.objects? = some ys) (hdisjoint : xs.Disjoint ys)
    (hr : (convert withTablespaces verdicts (pre ++ a ++ b ++ post)).outcome = .ok r) :
    ∃ r', (convert withTablespaces verdicts (pre ++ b ++ a ++ post)).outcome = .ok r' ∧
      r'.scripts = r.scripts ∧ r'.emission = r.emission ∧
      r'.session.catalog = r.session.catalog ∧
      r'.session.catalog.manifest = r.session.catalog.manifest ∧
      ∀ kind, r'.session.count kind = r.session.count kind := by
  have hconverts := converts_of_ok hr
  have hstatements : statements (pre ++ a ++ b ++ post) =
      statements pre ++ [s.down pre.length, t.down (pre ++ a).length] ++
        (statements post).map (Taken.down (pre ++ a ++ b).length) := by
    rw [statements_append ((hpre.append ha).append hb), statements_append (hpre.append ha),
      statements_append hpre, hs, ht, List.map_singleton, List.map_singleton,
      List.append_assoc (statements pre)]
    rfl
  have hswapped : statements (pre ++ b ++ a ++ post) =
      statements pre ++ [t.down pre.length, s.down (pre ++ b).length] ++
        (statements post).map (Taken.down (pre ++ b ++ a).length) := by
    rw [statements_append ((hpre.append hb).append ha), statements_append (hpre.append hb),
      statements_append hpre, hs, ht, List.map_singleton, List.map_singleton,
      List.append_assoc (statements pre)]
    rfl
  have hload : load ({}, {}) (statements (pre ++ b ++ a ++ post)) =
      some (r.session.catalog, r.session.context) := by
    rw [← hconverts.loads, hstatements, hswapped]
    simp only [load_append, load_down, load_pair, advance_down]
    exact congrArg (Option.bind · _) (Option.bind_congr fun p _ =>
      (advance_comm p hf hg hxs hys hdisjoint).symm)
  obtain ⟨r', hr', hcatalog, hscripts, hemission⟩ := exists_converts hload hconverts.emits
  refine ⟨r', hr', hscripts, hemission, hcatalog, by rw [hcatalog], fun kind => ?_⟩
  have hkinds : r'.session.kinds.Perm r.session.kinds := by
    rw [(converts_of_ok hr').kinds, hconverts.kinds, hstatements, hswapped]
    simp only [List.filterMap_append, filterMap_kind?_down]
    refine ((List.reverse_perm _).trans ?_).trans (List.reverse_perm _).symm
    exact ((List.Perm.swap _ _ []).filterMap kind?).append_left _ |>.append_right _
  exact hkinds.count_eq kind

/-- Two sequences whose names fall together without their hyphens. -/
theorem convert_swap_sequences : ∃ r r',
    (convert true [] ["CREATE SEQUENCE \"S\".\"A-B\" AS BIGINT;".toList,
      "CREATE SEQUENCE \"S\".\"AB\" AS BIGINT;".toList]).outcome = .ok r ∧
    (convert true [] ["CREATE SEQUENCE \"S\".\"AB\" AS BIGINT;".toList,
      "CREATE SEQUENCE \"S\".\"A-B\" AS BIGINT;".toList]).outcome = .ok r' ∧
    r'.scripts = r.scripts ∧ r'.emission = r.emission ∧ r.emission.names.renames.length = 1 := by
  let a := "CREATE SEQUENCE \"S\".\"A-B\" AS BIGINT;".toList
  let b := "CREATE SEQUENCE \"S\".\"AB\" AS BIGINT;".toList
  have hconverts : (convert true [] [a, b]).outcome.toOption.any
      (fun r => r.emission.names.renames.length = 1) = true := by decide +kernel
  cases hr : (convert true [] [a, b]).outcome with
  | error failure =>
    rw [hr] at hconverts
    cases hconverts
  | ok r =>
    rw [hr] at hconverts
    have hrenames : r.emission.names.renames.length = 1 := of_decide_eq_true hconverts
    obtain ⟨r', hr', hscripts, hemission, -⟩ :=
      convert_swap true [] [] [a] [b] []
        (s := ⟨⟨"CREATE SEQUENCE \"S\".\"A-B\" AS BIGINT".toList, [], 1⟩, .plain, none⟩)
        (t := ⟨⟨"CREATE SEQUENCE \"S\".\"AB\" AS BIGINT".toList, [], 1⟩, .plain, none⟩)
        (f := .createSequence "S" "A-B") (g := .createSequence "S" "AB")
        (by decide) (by decide +kernel) (by decide +kernel) (by decide +kernel)
        (by decide +kernel) (by decide +kernel) (by decide +kernel) rfl rfl (by simp) hr
    exact ⟨r, r', rfl, hr', hscripts, hemission, hrenames⟩

end SchemaTransfer
