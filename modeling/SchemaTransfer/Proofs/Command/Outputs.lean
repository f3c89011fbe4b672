import Mathlib.Data.List.Nodup
import SchemaTransfer.Proofs.Command.Progress

/-!
# The files of a conversion

The files that a conversion is for get their texts behind everything that may fail. So a run that
does not get as far as having all scripts leaves them as they were, wherever they stand, and one
that completes has written them. A run that does get there completes if its directories are there
and no directory stands in the place of a file.
-/
namespace SchemaTransfer.Command
open SchemaTransfer.Path

/-- The names of the files that a conversion may write. -/
def outputNames : List String :=
  ["before.sql", "after.sql", "unsure.sql", "TABLEDESC", "export.db2"]

theorem isName_of_mem_outputNames {n : String} (h : n ∈ outputNames) : IsName n := by
  have hall : outputNames.all fun n =>
      n ≠ "" && n ≠ "." && !n.toList.contains '/' && n ≠ ".." := by decide
  have hn := List.all_eq_true.1 hall n h
  simp only [Bool.and_eq_true, decide_eq_true_eq, Bool.not_eq_true', List.contains_eq_mem,
    decide_eq_false_iff_not] at hn
  obtain ⟨⟨⟨hempty, hpoint⟩, hslash⟩, hpoints⟩ := hn
  exact ⟨⟨hempty, hpoint, hslash⟩, hpoints⟩

theorem slash_not_mem_padded (width n : Nat) : '/' ∉ (Fixed.padded width n).toList := by
  intro h
  rw [Fixed.padded, String.toList_append, String.toList_ofList, List.mem_append] at h
  rcases h with h | h
  · exact absurd (List.eq_of_mem_replicate h) (by decide)
  · rw [Nat.repr, String.toList_ofList] at h
    exact absurd (Nat.isDigit_of_mem_toDigits (by decide) (by decide) h) (by decide)

theorem slash_not_mem_stamp (m : Moment) : '/' ∉ m.stamp.toList := by
  simp [Moment.stamp, slash_not_mem_padded]

/-- The names of logs and reports start with a letter that starts no other name. -/
theorem isName_of_stamp {pre post : String} (hpre : '/' ∉ pre.toList)
    (hpost : '/' ∉ post.toList) (hhead : pre.toList.head? = some 'c') (m : Moment) :
    IsName (pre ++ m.stamp ++ post) ∧ pre ++ m.stamp ++ post ∉ outputNames := by
  have hfirst : (pre ++ m.stamp ++ post).toList.head? = some 'c' := by
    simp [hhead]
  have hother : ("" :: "." :: ".." :: outputNames).all fun n => n.toList.head? ≠ some 'c' := by
    decide
  have hnot : pre ++ m.stamp ++ post ∉ "" :: "." :: ".." :: outputNames := fun h =>
    of_decide_eq_true (List.all_eq_true.1 hother _ h) hfirst
  simp only [List.mem_cons, not_or] at hnot
  have hslash : '/' ∉ (pre ++ m.stamp ++ post).toList := by
    simp [hpre, hpost, slash_not_mem_stamp]
  exact ⟨⟨⟨hnot.1, hnot.2.1, hslash⟩, hnot.2.2.1⟩, hnot.2.2.2⟩

theorem logName_spec (now : Moment) : IsName (logName now) ∧ logName now ∉ outputNames :=
  isName_of_stamp (by decide) (by decide) (by decide) now

theorem reportName_spec (now : Moment) :
    IsName (Report.fileName now) ∧ Report.fileName now ∉ outputNames :=
  isName_of_stamp (by decide) (by decide) (by decide) now

theorem isOther_log {name : String} (hname : name ∈ outputNames) (directory : String)
    (now : Moment) : IsOther name (child directory (logName now)) :=
  ⟨directory, _, rfl, (logName_spec now).1, fun heq => (logName_spec now).2 (heq ▸ hname)⟩

theorem isOther_report {name : String} (hname : name ∈ outputNames) (directory : String)
    (now : Moment) : IsOther name (child directory (Report.fileName now)) :=
  ⟨directory, _, rfl, (reportName_spec now).1, fun heq => (reportName_spec now).2 (heq ▸ hname)⟩

theorem isOther_output {name other : String} (hother : other ∈ outputNames) (hne : other ≠ name)
    (directory : String) : IsOther name (child directory other) :=
  ⟨directory, other, rfl, isName_of_mem_outputNames hother, hne⟩

theorem outputs_names (c : Conversion) (login : Login) :
    (∀ e ∈ outputs c login, e.1 ∈ outputNames) ∧ ((outputs c login).map Prod.fst).Nodup := by
  unfold outputs
  cases login.credentials? with
  | none => simp [outputNames]
  | some l => simp [outputNames]

/-- Only messages are said. -/
def AreRemarks (actions : List Action) : Prop :=
  ∀ a ∈ actions, ∃ level text, a = .say level text

theorem areRemarks_nil : AreRemarks [] := List.forall_mem_nil _

theorem AreRemarks.cons {as : List Action} (has : AreRemarks as) (level : Level) (text : String) :
    AreRemarks (.say level text :: as) :=
  List.forall_mem_cons.2 ⟨⟨level, text, rfl⟩, has⟩

theorem AreRemarks.append {as bs : List Action} (has : AreRemarks as) (hbs : AreRemarks bs) :
    AreRemarks (as ++ bs) :=
  List.forall_mem_append.2 ⟨has, hbs⟩

theorem areRemarks_banner (title : String) : AreRemarks (banner title) :=
  ((areRemarks_nil.cons .info rule).cons .info title).cons .info rule

theorem areRemarks_noticeActions (notices : List Notice) : AreRemarks (noticeActions notices) := by
  intro a ha
  obtain ⟨n, -, rfl⟩ := List.mem_map.1 ha
  exact ⟨_, _, rfl⟩

theorem AreRemarks.avoids {as : List Action} (has : AreRemarks as) (name : String) :
    ∀ a ∈ as, a.Avoids name := by
  intro a ha
  obtain ⟨level, text, rfl⟩ := has a ha
  exact avoids_say name level text

/-- Before the dump is read, only the log and its directory are made. -/
theorem mem_opening {o : Options} {env : Environment} {now : Moment} {a : Action}
    (ha : a ∈ opening o env now) :
    a = .makeDirectories o.logDir ∨ a = .startLog (child o.logDir (logName now)) ∨
      ∃ level text, a = .say level text := by
  simp only [opening, List.mem_append, List.mem_cons, List.not_mem_nil, List.mem_map,
    or_false] at ha
  rcases ha with (((rfl | rfl | rfl) | ha) | rfl | rfl) | ⟨text, -, rfl⟩
  case inl.inl.inl.inl => exact .inl rfl
  case inl.inl.inl.inr.inl => exact .inr (.inl rfl)
  case inl.inl.inr => exact .inr (.inr (areRemarks_banner _ a ha))
  all_goals exact .inr (.inr ⟨_, _, rfl⟩)

/-- Behind what was said before, only the outputs, the report and their directories are made. -/
theorem mem_closing {o : Options} {now : Moment} {elapsed : Float} {c : Conversion} {login : Login}
    {warnings : List String} {a : Action} (ha : a ∈ closing o now elapsed c login warnings) :
    (∃ level text, a = .say level text) ∨ a = .makeDirectory o.outputDir ∨
      a = .makeDirectories o.logDir ∨
      (∃ e ∈ outputs c login, a = .write (child o.outputDir e.1) e.2) ∨
      ∃ text, a = .write (child o.logDir (Report.fileName now)) text := by
  simp only [closing, writeOutputs, List.mem_append, List.mem_cons, List.not_mem_nil,
    List.mem_flatMap, or_false] at ha
  rcases ha with ((rfl | ha) | rfl | ⟨e, he, rfl | rfl⟩) | rfl | rfl | rfl | rfl | rfl | rfl | rfl
  case inl.inl.inr => exact .inl (areRemarks_banner _ a ha)
  case inl.inr.inl => exact .inr (.inl rfl)
  case inr.inl => exact .inr (.inr (.inl rfl))
  case inl.inr.inr.inl => exact .inr (.inr (.inr (.inl ⟨e, he, rfl⟩)))
  case inr.inr.inl => exact .inr (.inr (.inr (.inr ⟨_, rfl⟩)))
  all_goals exact .inl ⟨_, _, rfl⟩

/-- The plan does not write anything and does not complete. -/
def Plan.GivesUp (p : Plan) : Prop :=
  AreRemarks p.actions ∧ (p.ending = .exit 1 ∨ ∃ crash, p.ending = .crashed crash)

theorem Plan.GivesUp.after {p : Plan} (h : p.GivesUp) {actions : List Action}
    (hactions : AreRemarks actions) : (p.after actions).GivesUp :=
  ⟨hactions.append h.1, h.2⟩

theorem givesUp_failurePlan (o : Options) (f : Failure) : (failurePlan o f).GivesUp := by
  unfold failurePlan
  split
  · exact ⟨(areRemarks_nil.cons _ _).cons _ _, .inl rfl⟩
  · exact ⟨areRemarks_nil, .inr ⟨_, rfl⟩⟩

/-- A notice that cannot be said ends a run; where there is none, the run goes on. -/
theorem afterNotices_cases (notices : List Notice) (p : Plan) :
    (∀ n ∈ notices, n.isSayable = true) ∧
        Plan.afterNotices notices p = p.after (noticeActions notices) ∨
      (Plan.afterNotices notices p).GivesUp := by
  unfold Plan.afterNotices
  split
  · next h => exact .inl ⟨List.all_eq_true.1 h, rfl⟩
  · exact .inr ⟨areRemarks_noticeActions _, .inr ⟨_, rfl⟩⟩

theorem Plan.GivesUp.afterNotices {p : Plan} (h : p.GivesUp) (notices : List Notice) :
    (Plan.afterNotices notices p).GivesUp := by
  rcases afterNotices_cases notices p with ⟨-, hplan⟩ | hgives
  · rw [hplan]
    exact h.after (areRemarks_noticeActions notices)
  · exact hgives

/-- The conversion came to its end, and all that is reported on the way can be said. -/
def Completes (r : Conversion.Result) (c : Conversion) : Prop :=
  r.outcome = .ok c ∧ ∀ n ∈ r.loading ++ r.emitting, n.isSayable = true

/-- The dump can be read and decoded, all its statements are understood, and the three scripts are
emitted. -/
def ConvertsFrom (codecs : Codecs) (o : Options) (verdicts : List Verdict)
    (read : Except FileError (List UInt8)) (c : Conversion) : Prop :=
  ∃ bytes lines, read = .ok bytes ∧ readLines codecs o.encoding bytes = .ok lines ∧
    Completes (convert o.tablespaces verdicts lines) c

/-- The run gets as far as a conversion of the dump that is there behind the opening. -/
def Converts (codecs : Codecs) (o : Options) (env : Environment) (now : Moment)
    (verdicts : List Verdict) (files : FileTree) (c : Conversion) : Prop :=
  ∃ w, performAll now { files } (opening o env now) = (w, none) ∧
    ConvertsFrom codecs o verdicts (w.files.read o.file) c

theorem Converts.unique {codecs : Codecs} {o : Options} {env : Environment} {now : Moment}
    {verdicts : List Verdict} {files : FileTree} {c c' : Conversion}
    (h : Converts codecs o env now verdicts files c)
    (h' : Converts codecs o env now verdicts files c') : c = c' := by
  obtain ⟨w, hopen, bytes, lines, hread, hlines, houtcome, -⟩ := h
  obtain ⟨w', hopen', bytes', lines', hread', hlines', houtcome', -⟩ := h'
  obtain rfl : w = w' := congrArg Prod.fst (hopen.symm.trans hopen')
  obtain rfl := Except.ok.inj (hread.symm.trans hread')
  obtain rfl := Except.ok.inj (hlines.symm.trans hlines')
  exact Except.ok.inj (houtcome.symm.trans houtcome')

/-- The plan says something and closes the conversion. -/
def Plan.Closes (p : Plan) (o : Options) (login : Login) (now : Moment) (elapsed : Float)
    (c : Conversion) : Prop :=
  p.ending = .completed ∧ ∃ remarks warnings, AreRemarks remarks ∧
    p.actions = remarks ++ closing o now elapsed c login warnings

section

variable {codecs : Codecs} {o : Options} {verdicts : List Verdict} {c : Conversion}

section

variable {login : Login} {now : Moment} {elapsed : Float}

theorem Plan.Closes.after {p : Plan} (h : p.Closes o login now elapsed c) {actions : List Action}
    (hactions : AreRemarks actions) : (p.after actions).Closes o login now elapsed c := by
  obtain ⟨hending, remarks, warnings, hremarks, hplan⟩ := h
  refine ⟨hending, actions ++ remarks, warnings, hactions.append hremarks, ?_⟩
  rw [Plan.after, hplan, List.append_assoc]

theorem Plan.Closes.afterNotices {p : Plan} (h : p.Closes o login now elapsed c)
    {notices : List Notice} (hnotices : ∀ n ∈ notices, n.isSayable = true) :
    (Plan.afterNotices notices p).Closes o login now elapsed c := by
  rw [Plan.afterNotices, if_pos (List.all_eq_true.2 hnotices)]
  exact h.after (areRemarks_noticeActions notices)

theorem areRemarks_loaded (loaded : Option Load.Session) :
    AreRemarks ((loaded.map fun s =>
      loadedSummary s :: banner "PHASE 2: GENERATING POSTGRESQL DDL").getD []) := by
  cases loaded with
  | none => exact areRemarks_nil
  | some s => exact (areRemarks_banner _).cons _ _

end

variable (login : Login) (now : Moment) (elapsed : Float)

theorem closes_ofResult {r : Conversion.Result} (h : Completes r c) :
    (Plan.ofResult o login now elapsed r).Closes o login now elapsed c := by
  obtain ⟨houtcome, hnotices⟩ := h
  rw [List.forall_mem_append] at hnotices
  unfold Plan.ofResult
  rw [houtcome]
  dsimp only
  refine .after (.afterNotices ?_ hnotices.1) (areRemarks_banner _)
  refine .after (.afterNotices ?_ hnotices.2) (areRemarks_loaded r.loaded)
  exact ⟨rfl, [], _, areRemarks_nil, rfl⟩

theorem givesUp_ofResult {r : Conversion.Result} (h : ¬∃ c, Completes r c) :
    (Plan.ofResult o login now elapsed r).GivesUp := by
  unfold Plan.ofResult
  dsimp only
  cases houtcome : r.outcome with
  | error f =>
    refine .after (.afterNotices ?_ r.loading) (areRemarks_banner _)
    exact .after (.afterNotices (givesUp_failurePlan o f) r.emitting) (areRemarks_loaded r.loaded)
  | ok c =>
    -- the conversion came to its end, so one of the notices cannot be said
    refine .after ?_ (areRemarks_banner _)
    rcases afterNotices_cases r.loading _ with ⟨hloading, -⟩ | hgives
    · refine .afterNotices (.after ?_ (areRemarks_loaded r.loaded)) r.loading
      rcases afterNotices_cases r.emitting _ with ⟨hemitting, -⟩ | hgives
      · exact (h ⟨c, houtcome, List.forall_mem_append.2 ⟨hloading, hemitting⟩⟩).elim
      · exact hgives
    · exact hgives

theorem closes_ofRead {read : Except FileError (List UInt8)}
    (h : ConvertsFrom codecs o verdicts read c) :
    (Plan.ofRead codecs o login now elapsed verdicts read).Closes o login now elapsed c := by
  obtain ⟨bytes, lines, rfl, hlines, hcompletes⟩ := h
  unfold Plan.ofRead
  dsimp only
  rw [hlines]
  exact (closes_ofResult login now elapsed hcompletes).after (areRemarks_nil.cons _ _)

theorem givesUp_ofRead {read : Except FileError (List UInt8)}
    (h : ¬∃ c, ConvertsFrom codecs o verdicts read c) :
    (Plan.ofRead codecs o login now elapsed verdicts read).GivesUp := by
  unfold Plan.ofRead
  cases read with
  | error e =>
    dsimp only
    split
    · exact ⟨areRemarks_nil, .inr ⟨_, rfl⟩⟩
    · exact ⟨areRemarks_nil.cons _ _, .inl rfl⟩
  | ok bytes =>
    dsimp only
    split
    · exact ⟨(areRemarks_nil.cons _ _).cons _ _, .inl rfl⟩
    · exact ⟨areRemarks_nil.cons _ _, .inr ⟨_, rfl⟩⟩
    · next lines hlines =>
      refine (givesUp_ofResult login now elapsed ?_).after (areRemarks_nil.cons _ _)
      rintro ⟨c, hcompletes⟩
      exact h ⟨c, bytes, lines, rfl, hlines, hcompletes⟩

end

section

variable {codecs : Codecs} {o : Options} {env : Environment} {now : Moment} {elapsed : Float}
  {verdicts : List Verdict} {files : FileTree} {c : Conversion}

/-- The opening writes the log only, which is kept apart from all outputs. -/
theorem opening_frame {w : World} {problem : Option FileError}
    (hopen : performAll now { files } (opening o env now) = (w, problem)) {name : String}
    (hname : name ∈ outputNames) :
    w.Apart name ∧ ∀ place, w.files.file? (place ++ [name]) = files.file? (place ++ [name]) := by
  have havoids : ∀ a ∈ opening o env now, a.Avoids name := by
    intro a ha
    rcases mem_opening ha with rfl | rfl | ⟨level, text, rfl⟩
    · nofun
    · rintro path ⟨⟩
      exact isOther_log hname o.logDir now
    · exact avoids_say name level text
  have hstart : World.Apart { files } name := nofun
  have hframe := performAll_frame now hstart havoids
  rwa [hopen] at hframe

/-- The run closes the conversion and completes, if nothing keeps it from writing. -/
theorem runOptions_of_converts (elapsed : Float) (h : Converts codecs o env now verdicts files c) :
    ∃ w remarks warnings, performAll now { files } (opening o env now) = (w, none) ∧
      AreRemarks remarks ∧
      let result := performAll now w
        (remarks ++ closing o now elapsed c (Login.of o env) warnings)
      (runOptions codecs o env now elapsed verdicts files).files = result.1.files ∧
        (runOptions codecs o env now elapsed verdicts files).ending =
          match result.2 with
          | none => .completed
          | some e => .crashed (.file e) := by
  obtain ⟨w, hopen, hconverts⟩ := h
  obtain ⟨hending, remarks, warnings, hremarks, hplan⟩ :=
    closes_ofRead (Login.of o env) now elapsed hconverts
  refine ⟨w, remarks, warnings, hopen, hremarks, ?_⟩
  unfold runOptions
  rw [hopen]
  dsimp only
  rw [hplan, hending]
  cases performAll now w (remarks ++ closing o now elapsed c (Login.of o env) warnings) with
  | mk last problem => cases problem <;> exact ⟨rfl, rfl⟩

/-- Whatever a run makes can be made: its directories are there, and no directory stands in the
place of a file. -/
structure HasRoom (o : Options) (now : Moment) (files : FileTree) : Prop where
  outputDir : files.IsDirectory o.outputDir
  logDir : files.IsDirectory o.logDir
  named : o.logDir ≠ ""
  output : ∀ name ∈ outputNames, files.IsWritable (child o.outputDir name)
  log : files.IsWritable (child o.logDir (logName now))
  report : files.IsWritable (child o.logDir (Report.fileName now))

theorem HasRoom.opening_allowed (h : HasRoom o now files) (env : Environment) {a : Action}
    (ha : a ∈ opening o env now) : World.Allows { files } a := by
  rcases mem_opening ha with rfl | rfl | ⟨level, text, rfl⟩
  · exact ⟨h.named, h.logDir⟩
  · exact h.log
  · nofun

theorem HasRoom.closing_allowed (h : HasRoom o now files) {remarks : List Action}
    (hremarks : AreRemarks remarks) {login : Login} {warnings : List String} {a : Action}
    (ha : a ∈ remarks ++ closing o now elapsed c login warnings) :
    World.Allows { files } a := by
  rcases List.mem_append.1 ha with ha | ha
  · obtain ⟨level, text, rfl⟩ := hremarks a ha
    nofun
  · rcases mem_closing ha with ⟨level, text, rfl⟩ | rfl | rfl | ⟨e, he, rfl⟩ | ⟨text, rfl⟩
    · nofun
    · exact h.outputDir
    · exact ⟨h.named, h.logDir⟩
    · exact h.output e.1 ((outputs_names c login).1 e he)
    · exact h.report

/-- Nothing that the run does takes its room away. -/
theorem completed_of_hasRoom (elapsed : Float) (hroom : HasRoom o now files)
    (h : Converts codecs o env now verdicts files c) :
    (runOptions codecs o env now elapsed verdicts files).ending = .completed := by
  obtain ⟨w, remarks, warnings, hopen, hremarks, -, hending⟩ := runOptions_of_converts elapsed h
  have hkept := (performAll_allows now fun a ha => hroom.opening_allowed env ha).2
  rw [hopen] at hkept
  have hallowed : ∀ a ∈ remarks ++ closing o now elapsed c (Login.of o env) warnings,
      w.Allows a := fun a ha => hkept a (hroom.closing_allowed hremarks ha)
  rw [hending, (performAll_allows now hallowed).1]

/-- The run does not complete and leaves all outputs as they were. -/
theorem runOptions_of_not_converts (elapsed : Float)
    (h : ¬∃ c, Converts codecs o env now verdicts files c) :
    let outcome := runOptions codecs o env now elapsed verdicts files
    (outcome.ending = .exit 1 ∨ ∃ crash, outcome.ending = .crashed crash) ∧
      ∀ place, ∀ name ∈ outputNames,
        outcome.files.file? (place ++ [name]) = files.file? (place ++ [name]) := by
  unfold runOptions
  dsimp only
  split
  · next w e hopen =>
    exact ⟨.inr ⟨_, rfl⟩, fun place name hname => (opening_frame hopen hname).2 place⟩
  · next w hopen =>
    have hgives : (Plan.ofRead codecs o (Login.of o env) now elapsed verdicts
        (w.files.read o.file)).GivesUp :=
      givesUp_ofRead _ _ _ fun ⟨c, hconverts⟩ => h ⟨c, w, hopen, hconverts⟩
    generalize Plan.ofRead codecs o (Login.of o env) now elapsed verdicts
      (w.files.read o.file) = plan at hgives ⊢
    obtain ⟨hremarks, hending⟩ := hgives
    have hframe (place : Place) {name : String} (hname : name ∈ outputNames) :
        (performAll now w plan.actions).1.files.file? (place ++ [name]) =
          files.file? (place ++ [name]) := by
      obtain ⟨hapart, hopening⟩ := opening_frame hopen hname
      exact ((performAll_frame now hapart (hremarks.avoids name)).2 place).trans (hopening place)
    split
    · next hall =>
      rw [hall] at hframe
      exact ⟨.inr ⟨_, rfl⟩, fun place name hname => hframe place hname⟩
    · next hall =>
      rw [hall] at hframe
      exact ⟨hending, fun place name hname => hframe place hname⟩

/-- Among the actions that close a conversion, an output is written once and nothing else is
written to a file of its name. -/
theorem writesOnly_of_mem {remarks : List Action} (hremarks : AreRemarks remarks)
    {login : Login} {warnings : List String} {e : String × String} (he : e ∈ outputs c login)
    {a : Action} (ha : a ∈ remarks ++ closing o now elapsed c login warnings) :
    WritesOnly o.outputDir e.1 e.2 a := by
  obtain ⟨hnames, hdistinct⟩ := outputs_names c login
  rcases List.mem_append.1 ha with ha | ha
  · exact .inr (hremarks.avoids e.1 a ha)
  · rcases mem_closing ha with ⟨level, text, rfl⟩ | rfl | rfl | ⟨f, hf, rfl⟩ | ⟨text, rfl⟩
    · exact .inr (avoids_say e.1 level text)
    · exact .inr nofun
    · exact .inr nofun
    · by_cases heq : f.1 = e.1
      · rw [List.inj_on_of_nodup_map hdistinct hf he heq]
        exact .inl rfl
      · refine .inr ?_
        rintro path ⟨⟩
        exact isOther_output (hnames f hf) heq o.outputDir
    · refine .inr ?_
      rintro path ⟨⟩
      exact isOther_report (hnames e he) o.logDir now

theorem closing_written {remarks : List Action} (hremarks : AreRemarks remarks)
    {login : Login} {warnings : List String} {w : World} {e : String × String}
    (he : e ∈ outputs c login) (hw : w.Apart e.1)
    (hdone : (performAll now w
      (remarks ++ closing o now elapsed c login warnings)).2 = none) :
    (performAll now w (remarks ++ closing o now elapsed c login warnings)).1.files.content?
      (child o.outputDir e.1) = some (.text e.2) := by
  have hname := isName_of_mem_outputNames ((outputs_names c login).1 e he)
  refine performAll_written now hname hw (List.mem_append_right _ ?_)
    (fun a ha => writesOnly_of_mem hremarks he ha) hdone
  simp only [closing, writeOutputs, List.mem_append, List.mem_cons, List.mem_flatMap]
  exact .inl (.inr (.inr ⟨e, he, .inl rfl⟩))

/-- A file with the name of an output that is not written stays as it is. -/
theorem closing_frame {remarks : List Action} (hremarks : AreRemarks remarks)
    {login : Login} {warnings : List String} {w : World} {name : String}
    (hname : name ∈ outputNames) (hnot : ∀ e ∈ outputs c login, e.1 ≠ name)
    (hw : w.Apart name) (place : Place) :
    (performAll now w (remarks ++ closing o now elapsed c login warnings)).1.files.file?
      (place ++ [name]) = w.files.file? (place ++ [name]) := by
  refine (performAll_frame now hw fun a ha => ?_).2 place
  rcases List.mem_append.1 ha with ha | ha
  · exact hremarks.avoids name a ha
  · rcases mem_closing ha with ⟨level, text, rfl⟩ | rfl | rfl | ⟨e, he, rfl⟩ | ⟨text, rfl⟩
    · exact avoids_say name level text
    · nofun
    · nofun
    · rintro path ⟨⟩
      exact isOther_output ((outputs_names c login).1 e he) (hnot e he) o.outputDir
    · rintro path ⟨⟩
      exact isOther_report hname o.logDir now

end

/-- The value of a setting: the option, or in place of one that is absent or empty the value of the
environment, but never an empty value. -/
def IsValue (option environment : Option String) (value : String) : Prop :=
  value ≠ "" ∧
    (option = some value ∨ (option = none ∨ option = some "") ∧ environment = some value)

theorem setting_eq_some {option environment : Option String} {value : String} :
    setting option environment = some value ↔ IsValue option environment value := by
  unfold setting IsValue given
  rw [Option.or_eq_some_iff, Option.filter_eq_some_iff, Option.filter_eq_some_iff,
    Option.filter_eq_none_iff, decide_eq_true_eq]
  constructor
  · rintro (⟨hoption, hvalue⟩ | ⟨hempty, henvironment, hvalue⟩)
    · exact ⟨hvalue, .inl hoption⟩
    · refine ⟨hvalue, .inr ⟨?_, henvironment⟩⟩
      cases option with
      | none => exact .inl rfl
      | some text => exact .inr (congrArg some (by simpa using hempty text rfl))
  · rintro ⟨hvalue, hoption | ⟨hempty, henvironment⟩⟩
    · exact .inl ⟨hoption, hvalue⟩
    · refine .inr ⟨fun text htext => ?_, henvironment, hvalue⟩
      rcases hempty with rfl | rfl
      · cases htext
      · simpa using (Option.some.inj htext).symm

/-- The credentials that a run has are the three settings, if all have values. -/
theorem credentials?_eq_some {o : Options} {env : Environment} {k : Credentials} :
    (Login.of o env).credentials? = some k ↔ IsValue o.database env.database k.database ∧
      IsValue o.user env.user k.user ∧ IsValue o.password env.password k.password := by
  obtain ⟨database, user, password⟩ := k
  simp only [← setting_eq_some, Login.of]
  cases setting o.database env.database <;> cases setting o.user env.user <;>
    cases setting o.password env.password <;> simp [Login.credentials?]

/-- The outputs hold the texts of a conversion. The export script is there if there are credentials
for it; without them what stands in its place is as it was at the start. -/
structure Written (o : Options) (env : Environment) (c : Conversion) (start last : FileTree) :
    Prop where
  before : last.content? (child o.outputDir "before.sql") = some (.text c.scripts.before.render)
  after : last.content? (child o.outputDir "after.sql") = some (.text c.scripts.after.render)
  unsure : last.content? (child o.outputDir "unsure.sql") = some (.text c.scripts.unsure.render)
  manifest : last.content? (child o.outputDir "TABLEDESC") = some (.text c.session.catalog.manifest)
  exported : ∀ k : Credentials, IsValue o.database env.database k.database →
    IsValue o.user env.user k.user → IsValue o.password env.password k.password →
      last.content? (child o.outputDir "export.db2") =
        some (.text (c.session.catalog.exportScript k))
  notExported : (¬ ∃ k : Credentials, IsValue o.database env.database k.database ∧
      IsValue o.user env.user k.user ∧ IsValue o.password env.password k.password) →
    ∀ place, last.locate (child o.outputDir "export.db2") = .ok place →
      last.file? place = start.file? place

theorem closing_outputs {o : Options} {env : Environment} {now : Moment} {elapsed : Float}
    {files : FileTree} {w : World} {c : Conversion} {remarks : List Action}
    {warnings : List String} (hopen : performAll now { files } (opening o env now) = (w, none))
    (hremarks : AreRemarks remarks)
    (hdone : (performAll now w
      (remarks ++ closing o now elapsed c (Login.of o env) warnings)).2 = none) :
    Written o env c files (performAll now w
      (remarks ++ closing o now elapsed c (Login.of o env) warnings)).1.files := by
  have hwritten (e : String × String) (he : e ∈ outputs c (Login.of o env)) :=
    closing_written hremarks he
      (opening_frame hopen ((outputs_names c (Login.of o env)).1 e he)).1 hdone
  refine ⟨hwritten ("before.sql", c.scripts.before.render) (by simp [outputs]),
    hwritten ("after.sql", c.scripts.after.render) (by simp [outputs]),
    hwritten ("unsure.sql", c.scripts.unsure.render) (by simp [outputs]),
    hwritten ("TABLEDESC", c.session.catalog.manifest) (by simp [outputs]),
    fun k hd hu hp => ?_, fun hnone place hplace => ?_⟩
  · have hk := credentials?_eq_some.2 ⟨hd, hu, hp⟩
    exact hwritten ("export.db2", c.session.catalog.exportScript k) (by simp [outputs, hk])
  · have hk : (Login.of o env).credentials? = none :=
      Option.eq_none_iff_forall_ne_some.2 fun k hk => hnone ⟨k, credentials?_eq_some.1 hk⟩
    have hname : "export.db2" ∈ outputNames := by decide
    have hnot : ∀ e ∈ outputs c (Login.of o env), e.1 ≠ "export.db2" := by simp [outputs, hk]
    obtain ⟨hapart, hsame⟩ := opening_frame hopen hname
    obtain ⟨directory, -, rfl⟩ := FileTree.locate_child (isName_of_mem_outputNames hname) hplace
    exact (closing_frame hremarks hname hnot hapart directory).trans (hsame directory)

/-- Where the dump converts, only a file that cannot be made keeps the run from completing. -/
theorem ending_of_converts {codecs : Codecs} {o : Options} {env : Environment} {now : Moment}
    (elapsed : Float) {verdicts : List Verdict} {files : FileTree} {c : Conversion}
    (h : Converts codecs o env now verdicts files c) :
    let outcome := runOptions codecs o env now elapsed verdicts files
    outcome.ending = .completed ∨ ∃ e, outcome.ending = .crashed (.file e) := by
  obtain ⟨w, remarks, warnings, -, -, -, hending⟩ := runOptions_of_converts elapsed h
  dsimp only
  rw [hending]
  split
  · exact .inl rfl
  · exact .inr ⟨_, rfl⟩

theorem written_of_completed {codecs : Codecs} {o : Options} {env : Environment} {now : Moment}
    {elapsed : Float} {verdicts : List Verdict} {files : FileTree}
    (h : (runOptions codecs o env now elapsed verdicts files).ending = .completed) :
    ∃ c, Converts codecs o env now verdicts files c ∧
      Written o env c files (runOptions codecs o env now elapsed verdicts files).files := by
  by_cases hconverts : ∃ c, Converts codecs o env now verdicts files c
  · obtain ⟨c, hconverts⟩ := hconverts
    obtain ⟨w, remarks, warnings, hopen, hremarks, hfiles, hending⟩ :=
      runOptions_of_converts elapsed hconverts
    refine ⟨c, hconverts, ?_⟩
    rw [hfiles]
    refine closing_outputs hopen hremarks ?_
    rw [h] at hending
    split at hending
    · assumption
    · cases hending
  · obtain ⟨hending, -⟩ := runOptions_of_not_converts elapsed hconverts
    rw [h] at hending
    rcases hending with hexit | ⟨crash, hcrash⟩
    · cases hexit
    · cases hcrash

/-- A run that does not get as far as a conversion leaves every file as it was that has the name of
an output, in whatever directory. One that does get there completes, unless a directory or a file
cannot be made, and surely if there is room for all it makes. A run that completes has converted its
dump and written the outputs. -/
theorem run_outputs (codecs : Codecs) (argv : List String) (env : Environment) (now : Moment)
    (elapsed : Float) (verdicts : List Verdict) (files : FileTree) :
    let outcome := run codecs argv env now elapsed verdicts files
    ((¬ ∃ o c, parse argv = .options o ∧ Converts codecs o env now verdicts files c) →
      (outcome.ending = .exit 1 ∨ outcome.ending = .exit 2 ∨
        (∃ crash, outcome.ending = .crashed crash) ∨
          parse argv = .help ∧ outcome.ending = .exit 0) ∧
      ∀ place, ∀ name ∈ outputNames,
        outcome.files.file? (place ++ [name]) = files.file? (place ++ [name])) ∧
    (∀ o c, parse argv = .options o → Converts codecs o env now verdicts files c →
      (outcome.ending = .completed ∨ ∃ e, outcome.ending = .crashed (.file e)) ∧
        (HasRoom o now files → outcome.ending = .completed)) ∧
    (outcome.ending = .completed → ∃ o c, parse argv = .options o ∧
      Converts codecs o env now verdicts files c ∧ Written o env c files outcome.files) := by
  intro outcome
  have hrun : outcome = run codecs argv env now elapsed verdicts files := rfl
  unfold run at hrun
  cases hparse : parse argv with
  | usageError =>
    rw [hparse] at hrun
    rw [hrun]
    dsimp only
    exact ⟨fun _ => ⟨.inr (.inl rfl), fun _ _ _ => rfl⟩, fun _ _ h => (by cases h),
      fun h => by cases h⟩
  | help =>
    rw [hparse] at hrun
    rw [hrun]
    dsimp only
    exact ⟨fun _ => ⟨.inr (.inr (.inr ⟨rfl, rfl⟩)), fun _ _ _ => rfl⟩, fun _ _ h => (by cases h),
      fun h => by cases h⟩
  | options o =>
    rw [hparse] at hrun
    rw [hrun]
    dsimp only
    refine ⟨fun hnot => ?_, fun o' c heq hconverts => ?_, fun hcompleted => ?_⟩
    · obtain ⟨hending, hframe⟩ := runOptions_of_not_converts elapsed
        fun ⟨c, hconverts⟩ => hnot ⟨o, c, rfl, hconverts⟩
      refine ⟨?_, hframe⟩
      rcases hending with hexit | hcrash
      · exact .inl hexit
      · exact .inr (.inr (.inl hcrash))
    · cases heq
      exact ⟨ending_of_converts elapsed hconverts,
        fun hroom => completed_of_hasRoom elapsed hroom hconverts⟩
    · obtain ⟨c, hconverts, hwritten⟩ := written_of_completed hcompleted
      exact ⟨o, c, rfl, hconverts, hwritten⟩

/-- A decoder for `cp1252`, as far as that agrees with Latin-1. -/
def westernCodec : Codecs := fun name bytes =>
  if name = "cp1252" then .ok (Encoding.SingleByte.latin1 bytes)
  else .error (.unknownEncoding name)

/-- A dump in an encoding that a platform knows is told by way of a directory beside it, and the
scripts go by way of another one to a directory that already holds one of them. -/
theorem run_outputs_role :
    let argv :=
      ["-f", "in/../d.sql", "-o", "new/../out", "--log-dir", ".", "--encoding", "cp1252"]
    let o : Options :=
      { file := "in/../d.sql", outputDir := "new/../out", logDir := ".", encoding := some "cp1252" }
    let env : Environment := ⟨some "SAMPLE", some "db2", some "secret"⟩
    let noon : Moment := ⟨2024, 3, 1, 12, 0, 0, 0⟩
    let files : FileTree :=
      { nodes := [(["d.sql"], .file (.text "CREATE ROLE \"R\";\n")), (["in"], .directory),
          (["new"], .directory), (["out"], .directory),
          (["out", "before.sql"], .file (.text "old"))] }
    parse argv = .options o ∧ (∃ c, Converts westernCodec o env noon [] files c) ∧
      HasRoom o noon files ∧ (run westernCodec argv env noon 0 [] files).ending = .completed ∧
      (run westernCodec argv env noon 0 [] files).files.content? (child o.outputDir "before.sql") =
        some (.text "set client_encoding to UTF8;\n\nCREATE ROLE r;\n\n\n\n") ∧
      (run westernCodec argv env noon 0 [] files).files.content? (child o.outputDir "export.db2") =
        some (.text "connect to SAMPLE user db2 using 'secret'\n") := by
  intro argv o env noon files
  have hparse : parse argv = .options o := by decide +kernel
  have hroom : HasRoom o noon files := by
    refine ⟨⟨["out"], by decide +kernel, rfl⟩, ⟨[], by decide +kernel, rfl⟩, by decide,
      fun name hname => ?_, ⟨[logName noon], by decide +kernel, by decide +kernel⟩,
      ⟨[Report.fileName noon], by decide +kernel, by decide +kernel⟩⟩
    have hplaces : ∀ name ∈ outputNames, files.locate (child o.outputDir name) = .ok ["out", name] ∧
        files.node? ["out", name] ≠ some .directory := by decide +kernel
    exact ⟨["out", name], hplaces name hname⟩
  have hopen : (performAll noon { files } (opening o env noon)).2 = none ∧
      ((performAll noon { files } (opening o env noon)).1.files.read o.file).toOption =
        some "CREATE ROLE \"R\";\n".toUTF8.toList := by
    decide +kernel
  have hlines : (readLines westernCodec o.encoding "CREATE ROLE \"R\";\n".toUTF8.toList).toOption =
      some ["CREATE ROLE \"R\";".toList, []] := by
    decide +kernel
  have hresult :
      let r := convert o.tablespaces [] ["CREATE ROLE \"R\";".toList, []]
      r.outcome.toOption.map (fun c =>
        (c.scripts.before.render, c.session.catalog.exportScript ⟨"SAMPLE", "db2", "secret"⟩)) =
          some ("set client_encoding to UTF8;\n\nCREATE ROLE r;\n\n\n\n",
            "connect to SAMPLE user db2 using 'secret'\n") ∧
        (r.loading ++ r.emitting).all Notice.isSayable = true := by
    decide +kernel
  obtain ⟨c, hc, htexts⟩ := exists_ok_of_toOption_map hresult.1
  obtain ⟨hbefore, hexport⟩ := Prod.mk.inj htexts
  have hconverts : Converts westernCodec o env noon [] files c := by
    cases hrun : performAll noon { files } (opening o env noon) with
    | mk w problem =>
      rw [hrun] at hopen
      obtain ⟨rfl, hread⟩ := hopen
      exact ⟨w, hrun, _, _, eq_ok_of_toOption hread, eq_ok_of_toOption hlines, hc,
        List.all_eq_true.1 hresult.2⟩
  obtain ⟨-, hconverted, hcompleted⟩ := run_outputs westernCodec argv env noon 0 [] files
  have hending := (hconverted o c hparse hconverts).2 hroom
  refine ⟨hparse, ⟨c, hconverts⟩, hroom, hending, ?_⟩
  obtain ⟨o', c', hparse', hconverts', hwritten⟩ := hcompleted hending
  obtain rfl := Parsed.options.inj (hparse.symm.trans hparse')
  obtain rfl := hconverts.unique hconverts'
  refine ⟨?_, ?_⟩
  · rw [← hbefore]
    exact hwritten.before
  · rw [← hexport]
    have hvalue (value : String) (hne : value ≠ "") : IsValue none (some value) value :=
      ⟨hne, .inr ⟨.inl rfl, rfl⟩⟩
    exact hwritten.exported ⟨"SAMPLE", "db2", "secret"⟩ (hvalue _ (by decide))
      (hvalue _ (by decide)) (hvalue _ (by decide))

end SchemaTransfer.Command
