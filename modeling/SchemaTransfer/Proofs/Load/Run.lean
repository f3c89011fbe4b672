import SchemaTransfer.Conversion
import SchemaTransfer.Proofs.Dump.Statement
import SchemaTransfer.Proofs.Except
import SchemaTransfer.Proofs.Load.Edit
import SchemaTransfer.Proofs.Load.WellKept

/-!
# Loading as a fold of edits

Where no statement fails, loading comes down to a fold of edits over the catalog, together with the
current schema and path. Notices and the numbers of lines play no part in it.
-/
namespace SchemaTransfer.Load
open Dump

/-- What a statement makes of the catalog and of the current schema and path, unless it fails. -/
def advance (p : Catalog × Context) (s : Statement) : Option (Catalog × Context) :=
  (Form.ofLine? s.first).bind fun form =>
    (p.1.editAll (edits p.2 s.rest form)).map fun c => (c, nextContext p.2 form)

theorem advance_eq_some {p q : Catalog × Context} {s : Statement} (h : advance p s = some q) :
    ∃ form, Form.ofLine? s.first = some form ∧ q.2 = nextContext p.2 form ∧
      p.1.editAll (edits p.2 s.rest form) = some q.1 := by
  obtain ⟨form, hform, h⟩ := Option.bind_eq_some_iff.1 h
  obtain ⟨c, hc, rfl⟩ := Option.map_eq_some_iff.1 h
  exact ⟨form, hform, rfl, hc⟩

/-- What a statement makes of the one object that it edits. -/
theorem content_advance {p q : Catalog × Context} {s : Statement} {form : Form} {e : Edit}
    (hform : Form.ofLine? s.first = some form) (hsingle : edits p.2 s.rest form = [e])
    (h : advance p s = some q) :
    ∃ new, e.change (p.1.content e.object) = some new ∧
      q.1.content e.object = e.object.update new (p.1.content e.object) := by
  obtain ⟨form', hform', -, hedits⟩ := advance_eq_some h
  obtain rfl := Option.some.inj (hform.symm.trans hform')
  rw [hsingle, Catalog.editAll_singleton] at hedits
  obtain ⟨new, hnew, hput⟩ := Option.map_eq_some_iff.1 hedits
  exact ⟨new, hnew, by rw [← hput, Catalog.content_put_self]⟩

/-- A statement changes what it is about in its own way, and leaves a table that it is not about
as it is. -/
theorem advance_relation {p q : Catalog × Context} {s : Statement} {form : Form}
    (hform : Form.ofLine? s.first = some form) (h : advance p s = some q) (schema name : String) :
    (∃ change r, Touches s.rest schema name form change ∧
      change (p.1.content (.relation schema name)) = some r ∧
      q.1.content (.relation schema name) =
        (SchemaPart.relation name).update r (p.1.content (.relation schema name))) ∨
    q.1.content (.relation schema name) = p.1.content (.relation schema name) ∧
      ∀ change, ¬Touches s.rest schema name form change := by
  rcases touches_or p.2 s.rest schema name form with ⟨change, htouches, hsingle⟩ | ⟨hnot, hnone⟩
  · obtain ⟨r, hr, hcontent⟩ := content_advance hform hsingle h
    exact .inl ⟨change, r, htouches, hr, hcontent⟩
  · obtain ⟨form', hform', -, hedits⟩ := advance_eq_some h
    obtain rfl := Option.some.inj (hform.symm.trans hform')
    exact .inr ⟨Catalog.content_editAll hedits hnot, hnone⟩

def load (p : Catalog × Context) (ts : List Taken) : Option (Catalog × Context) :=
  ts.foldlM (fun p t => advance p t.statement) p

theorem load_cons (p : Catalog × Context) (t : Taken) (ts : List Taken) :
    load p (t :: ts) = (advance p t.statement).bind fun q => load q ts := rfl

theorem load_append (p : Catalog × Context) (ts us : List Taken) :
    load p (ts ++ us) = (load p ts).bind fun q => load q us := List.foldlM_append

theorem load_pair (p : Catalog × Context) (t u : Taken) :
    load p [t, u] = (advance p t.statement).bind fun q => advance q u.statement := by
  rw [load_cons]
  exact Option.bind_congr fun q _ => Option.bind_fun_some _

theorem advance_down (p : Catalog × Context) (t : Taken) (k : Nat) :
    advance p (t.down k).statement = advance p t.statement := rfl

theorem load_down (p : Catalog × Context) (ts : List Taken) (k : Nat) :
    load p (ts.map (Taken.down k)) = load p ts := by
  induction ts generalizing p with
  | nil => rfl
  | cons t ts ih =>
    rw [List.map_cons, load_cons, load_cons]
    exact Option.bind_congr fun q _ => ih q

/-- The kind of a statement with a known form. -/
def kind? (t : Taken) : Option Kind := (Form.ofLine? t.statement.first).map Form.kind

theorem filterMap_kind?_down (ts : List Taken) (k : Nat) :
    (ts.map (Taken.down k)).filterMap kind? = ts.filterMap kind? := by
  rw [List.filterMap_map]
  rfl

section

variable {session : Session}

theorem take_advance (session : Session) (s : Statement) :
    advance (session.catalog, session.context) s =
      match (session.take s).outcome with
      | .ok _ => some ((session.take s).session.catalog, (session.take s).session.context)
      | .error _ => none := by
  unfold advance Session.take
  cases Form.ofLine? s.first with
  | none => rfl
  | some form =>
    rw [Option.bind_some, ← perform_result?]
    dsimp only [Reading.result?]
    cases (perform session.catalog session.context s form).outcome <;> rfl

theorem take_kinds {s : Statement} {left : List (List Char)}
    (h : (session.take s).outcome = .ok left) :
    (session.take s).session.kinds =
      ((Form.ofLine? s.first).map Form.kind).toList ++ session.kinds := by
  unfold Session.take at h ⊢
  cases hform : Form.ofLine? s.first with
  | none =>
    rw [hform] at h
    cases h
  | some form => rfl

theorem advance_wellKept {p q : Catalog × Context} (h : p.1.WellKept) {s : Statement}
    (hq : advance p s = some q) : q.1.WellKept := by
  let session : Session := { catalog := p.1, context := p.2 }
  have htake : advance p s = _ := take_advance session s
  have hkept : (session.take s).session.catalog.WellKept := take_wellKept h s
  rw [hq] at htake
  split at htake
  · rw [Option.some.inj htake]
    exact hkept
  · cases htake

/-- What every statement keeps is kept by all of them. -/
theorem load_invariant {P : Catalog × Context → Prop}
    (hstep : ∀ {p q s}, P p → advance p s = some q → P q) {p q : Catalog × Context} (hp : P p)
    {ts : List Taken} (hq : load p ts = some q) : P q := by
  induction ts generalizing p with
  | nil =>
    cases hq
    exact hp
  | cons t ts ih =>
    obtain ⟨p', hp', hq⟩ := Option.bind_eq_some_iff.1 (load_cons p t ts ▸ hq)
    exact ih (hstep hp hp') hq

theorem load_wellKept {p q : Catalog × Context} (h : p.1.WellKept) {ts : List Taken}
    (hq : load p ts = some q) : q.1.WellKept :=
  load_invariant (P := fun p => p.1.WellKept) (fun h hq => advance_wellKept h hq) h hq

theorem takeAll_load (session : Session) (ts : List Taken) :
    load (session.catalog, session.context) ts =
      match (session.takeAll ts).2.2 with
      | none => some ((session.takeAll ts).1.catalog, (session.takeAll ts).1.context)
      | some _ => none := by
  induction ts generalizing session with
  | nil => rfl
  | cons t ts ih =>
    rw [load_cons, take_advance, Session.takeAll]
    dsimp only
    cases (session.take t.statement).outcome with
    | error failure => rfl
    | ok left => exact ih _

/-- What a session holds behind statements that load. -/
theorem takeAll_of_load {ts : List Taken} {q : Catalog × Context}
    (h : load (session.catalog, session.context) ts = some q) :
    (session.takeAll ts).2.2 = none ∧ (session.takeAll ts).1.catalog = q.1 ∧
      (session.takeAll ts).1.context = q.2 := by
  rw [takeAll_load] at h
  split at h
  · next hnone =>
    cases h
    exact ⟨hnone, rfl, rfl⟩
  · cases h

theorem takeAll_kinds (session : Session) (ts : List Taken)
    (h : (session.takeAll ts).2.2 = none) :
    (session.takeAll ts).1.kinds = (ts.filterMap kind?).reverse ++ session.kinds := by
  induction ts generalizing session with
  | nil => rfl
  | cons t ts ih =>
    rw [Session.takeAll] at h ⊢
    dsimp only at h ⊢
    cases hstep : (session.take t.statement).outcome with
    | error failure =>
      rw [hstep] at h
      cases h
    | ok left =>
      rw [hstep] at h
      refine (ih _ h).trans ?_
      rw [take_kinds hstep, List.filterMap_cons, kind?]
      cases (Form.ofLine? t.statement.first).map Form.kind <;> simp

end

end SchemaTransfer.Load

namespace SchemaTransfer
open Load Dump

/-- What a conversion that succeeds consists of. -/
structure Converts (withTablespaces : Bool) (verdicts : List Verdict) (lines : List (List Char))
    (r : Conversion) : Prop where
  loads : load ({}, {}) (statements lines) = some (r.session.catalog, r.session.context)
  kinds : r.session.kinds = ((statements lines).filterMap kind?).reverse
  emits : (emitScripts withTablespaces r.session.catalog).run
    (.start r.session.catalog verdicts) = (.ok r.scripts, r.emission)

variable {withTablespaces : Bool} {verdicts : List Verdict} {lines : List (List Char)}

theorem converts_of_ok {r : Conversion}
    (h : (convert withTablespaces verdicts lines).outcome = .ok r) :
    Converts withTablespaces verdicts lines r := by
  have hload := takeAll_load {} (statements lines)
  have hkinds := takeAll_kinds {} (statements lines)
  unfold convert at h
  generalize ({} : Session).takeAll (statements lines) = taken at h hload hkinds
  obtain ⟨session, notices, failure⟩ := taken
  cases failure with
  | some failure => cases h
  | none =>
    obtain ⟨scripts, hscripts, rfl⟩ := map_eq_ok h
    refine ⟨hload, (hkinds rfl).trans (List.append_nil _), ?_⟩
    exact Prod.ext hscripts rfl

/-- Whether scripts are emitted, and which, depends on the catalog alone. -/
theorem exists_converts {p : Catalog × Context}
    (hload : load ({}, {}) (statements lines) = some p) {scripts : Scripts} {emission : Emission}
    (hemit : (emitScripts withTablespaces p.1).run (.start p.1 verdicts) =
      (.ok scripts, emission)) :
    ∃ r, (convert withTablespaces verdicts lines).outcome = .ok r ∧ r.session.catalog = p.1 ∧
      r.scripts = scripts ∧ r.emission = emission := by
  have htake := takeAll_load {} (statements lines)
  have hstart : load (({} : Session).catalog, ({} : Session).context) (statements lines) =
    some p := hload
  rw [hstart] at htake
  unfold convert
  generalize ({} : Session).takeAll (statements lines) = taken at htake ⊢
  obtain ⟨session, notices, failure⟩ := taken
  cases failure with
  | some failure => cases htake
  | none =>
    cases htake
    refine ⟨⟨session, scripts, emission⟩, ?_, rfl, rfl, rfl⟩
    dsimp only at hemit ⊢
    rw [hemit]
    rfl

end SchemaTransfer
