import SchemaTransfer.Proofs.Dump.ContainerText
import SchemaTransfer.Proofs.Load.Tablespace

/-!
# Lists of containers

A list of containers is read line by line, all containers of a line at once. What is read is the
same wherever the lines end behind its commas, and nothing behind its parenthesis is read with it. A
list that is cut off is refused, and the containers in front of the cut are those that are kept.
-/
namespace SchemaTransfer.Load
open Unicode Scan Dump

namespace TablespaceBody

variable {t : Tablespace} {rest : List (List Char)}

theorem addPaths_append (t : Tablespace) (xs ys : List Container) :
    addPaths t (xs ++ ys) = addPaths (addPaths t xs) ys := by
  simp [addPaths]

theorem addPaths_nil (t : Tablespace) : addPaths t [] = t := by
  simp [addPaths]

theorem goesOn_cons {c : Container} {cs : List Container} (h : cs ≠ []) :
    goesOn (c :: cs) = goesOn cs := by
  obtain ⟨d, ds, rfl⟩ := List.exists_cons_of_ne_nil h
  rfl

theorem goesOn_of_forall {cs : List Container} (h : ∀ c ∈ cs, c.closes = false) :
    goesOn cs = true := by
  unfold goesOn
  cases hlast : cs.getLast? with
  | none => rfl
  | some c => simp [h c (List.mem_of_getLast? hlast)]

theorem read_line {line : List Char} (h : Container.ofLine line ≠ []) :
    read t true (line :: rest) =
      read (addPaths t (Container.ofLine line)) (goesOn (Container.ofLine line)) rest := by
  rw [tablespace_read_cons]
  exact if_neg (by simpa using h)

/-- A line without a container is refused in a list. -/
theorem read_blind {line : List Char} (h : Container.ofLine line = []) :
    read t true (line :: rest) = .malformed t (.containers t.name line) := by
  rw [tablespace_read_cons]
  exact if_pos (by simp [h])

theorem containersStart?_opening (l : ContainerList) {line : List Char} (h : '\n' ∉ line) :
    containersStart? (l.opening ++ line) = some line := by
  have hopening : trimLeft (l.opening ++ line) =
      "USING".toList ++ (l.gap.chars ++ '(' :: line) := by
    rw [ContainerList.opening, List.append_assoc, trimLeft_append l.indent.blank, List.append_assoc,
      List.append_assoc]
    rfl
  have hgap : trimLeft (l.gap.chars ++ '(' :: line) = '(' :: line := by
    rw [trimLeft_append l.gap.blank, trimLeft_cons rfl]
  have hparenthesis : literal? "(" ('(' :: line) = some line := rfl
  rw [containersStart?, hopening, literal?_append]
  simp only [Option.bind_eq_bind, Option.bind_some, hgap, hparenthesis]
  exact lastLine?_of_not_mem h

/-- The words that open a list are passed. -/
theorem read_opening (l : ContainerList) (cs : List Char) :
    read t false (List.splitOn '\n' (l.opening ++ cs) ++ rest) =
      read t true (List.splitOn '\n' cs ++ rest) := by
  have hopening : '\n' ∉ l.opening := by
    simp [ContainerList.opening, l.indent.line, l.gap.line]
  obtain ⟨line, lines, hcs, hall⟩ := Lines.splitOn_prepend hopening cs
  have hline : '\n' ∉ line := Lines.not_mem_of_mem_splitOn (hcs ▸ List.mem_cons_self)
  rw [hall, hcs, List.cons_append, List.cons_append, tablespace_read_cons, tablespace_read_cons]
  simp only [Bool.false_eq_true, if_false, if_true, containersStart?_opening l hline]

/-- A container is read with its comma, and the list goes on, be it on the same line or on the
next. -/
theorem read_comma (k : ContainerText) (f : FurtherText) (further : List FurtherText)
    (behind : List Char) :
    read t true (List.splitOn '\n' (listText k (f :: further) ++ ')' :: behind) ++ rest) =
      read (addPaths t [⟨k.path, false⟩]) true
        (List.splitOn '\n' (listText f.container further ++ ')' :: behind) ++ rest) := by
  have hfirst (line : List Char) : Container.ofLine (k.text ++ ',' :: line) ≠ [] := by
    simp [k.ofLine_comma]
  obtain ⟨line, lines, hlist, hline⟩ := exists_splitOn_listText f.container further behind
  rw [listText, List.append_assoc, List.cons_append, List.append_assoc]
  rcases f with ⟨_ | pad, container⟩
  · -- The line goes on behind the comma, so both containers are read at once.
    have hsame := k.splitOn_append (c := ',') (by decide) hlist
    show read t true (List.splitOn '\n' (k.text ++ ',' :: (listText container further ++
      ')' :: behind)) ++ rest) = _
    rw [hsame, hlist, List.cons_append, List.cons_append, read_line (hfirst line), read_line hline,
      k.ofLine_comma, goesOn_cons hline, ← addPaths_append]
    rfl
  · have hnext : List.splitOn '\n' (k.text ++ ',' :: (pad.chars ++ '\n' ::
        (listText container further ++ ')' :: behind))) = (k.text ++ ',' :: pad.chars) ::
          List.splitOn '\n' (listText container further ++ ')' :: behind) := by
      refine k.splitOn_append (by decide) ?_
      rw [List.splitOn_append_cons_self, List.splitOn_eq_singleton pad.line]
      rfl
    rw [FurtherText.between, Option.map_some, Option.getD_some, List.append_assoc,
      List.singleton_append, hnext, List.cons_append, read_line (hfirst pad.chars), k.ofLine_comma,
      pad.ofLine_of_prefix List.prefix_rfl]
    rfl

/-- All containers of a list are read, and nothing behind its parenthesis. -/
theorem read_listText (k : ContainerText) (further : List FurtherText) {behind : List Char}
    (hquote : '\'' ∉ behind) (hfeed : '\n' ∉ behind) :
    read t true (List.splitOn '\n' (listText k further ++ ')' :: behind) ++ rest) =
      read { t with paths := t.paths ++ k.path :: further.map (·.container.path) } false rest := by
  -- The containers read so far are part of the tablespace, so it changes from step to step.
  induction further generalizing k t with
  | nil =>
    have hline : Container.ofLine (k.text ++ ')' :: behind) = [⟨k.path, true⟩] := by
      rw [k.ofLine_parenthesis, Container.ofLine_of_quoteFree hquote]
    have hone : '\n' ∉ k.text ++ ')' :: behind := by simp [k.oneLine_text, hfeed]
    rw [listText, List.splitOn_eq_singleton hone, List.singleton_append,
      read_line (by simp [hline]), hline]
    rfl
  | cons f further ih =>
    rw [read_comma, ih]
    simp [addPaths]

/-- What a list of containers is refused for: it ends too early, or a line has no container. -/
def IsListFailure (t : Tablespace) (cause : Malformed) : Prop :=
  cause = .containersUnterminated t.name ∨ ∃ line, cause = .containers t.name line

/-- Lines are refused if no container on them closes the list and none at all stands on the next
line. What is kept are containers from the front. -/
theorem read_open {lines : List (List Char)}
    (hlines : ∀ c ∈ lines.flatMap Container.ofLine, c.closes = false)
    (hrest : ∀ line ∈ rest.head?, Container.ofLine line = []) :
    ∃ containers cause, containers <+: lines.flatMap Container.ofLine ∧ IsListFailure t cause ∧
      read t true (lines ++ rest) = .malformed (addPaths t containers) cause := by
  have hstop {t : Tablespace} {cause : Malformed} {lines more : List (List Char)}
      (h : read t true lines = .malformed t cause) (hcause : IsListFailure t cause) :
      ∃ containers cause, containers <+: more.flatMap Container.ofLine ∧ IsListFailure t cause ∧
        read t true lines = .malformed (addPaths t containers) cause :=
    ⟨[], cause, List.nil_prefix, hcause, by rw [addPaths_nil, h]⟩
  induction lines generalizing t with
  | nil =>
    cases rest with
    | nil => exact hstop rfl (.inl rfl)
    | cons line rest => exact hstop (read_blind (hrest line rfl)) (.inr ⟨line, rfl⟩)
  | cons line lines ih =>
    rw [List.flatMap_cons, List.forall_mem_append] at hlines
    by_cases hline : Container.ofLine line = []
    · exact hstop (read_blind hline) (.inr ⟨line, rfl⟩)
    · obtain ⟨containers, cause, hprefix, hcause, hread⟩ :=
        ih (t := addPaths t (Container.ofLine line)) hlines.2
      refine ⟨Container.ofLine line ++ containers, cause, ?_, hcause, ?_⟩
      · rw [List.flatMap_cons]
        exact (List.prefix_append_right_inj _).2 hprefix
      · rw [List.cons_append, read_line hline, goesOn_of_forall hlines.1, hread, addPaths_append]

theorem read_of_prefix (l : ContainerList) {front : List Char} (hfront : front <+: l.text)
    (hrest : ∀ line ∈ rest.head?, '\'' ∉ line) :
    ∃ paths cause, paths <+: l.paths ∧ IsListFailure t cause ∧
      read t true (List.splitOn '\n' front ++ rest) =
        .malformed { t with paths := t.paths ++ paths } cause := by
  have honLines : (List.splitOn '\n' front).flatMap Container.ofLine <+:
      l.paths.map fun path => ⟨path, false⟩ := onLines_of_prefix_listText hfront
  have hopen : ∀ c ∈ (List.splitOn '\n' front).flatMap Container.ofLine, c.closes = false := by
    intro c hc
    obtain ⟨path, -, rfl⟩ := List.mem_map.1 (honLines.subset hc)
    rfl
  obtain ⟨containers, cause, hcontainers, hcause, hread⟩ :=
    read_open (t := t) hopen fun line hline => Container.ofLine_of_quoteFree (hrest line hline)
  refine ⟨containers.map Container.path, cause, ?_, hcause, hread⟩
  have hpaths := (hcontainers.trans honLines).map Container.path
  rwa [List.map_map, Function.comp_def, List.map_id'] at hpaths

/-- A list of containers is read the same wherever its lines end: its paths are added to those of
the tablespace, each once and in the order of the list, and the lines behind the parenthesis are
read as they are without the list. A list that is cut off anywhere before the parenthesis is
refused, and at most paths from its front have been added. -/
theorem read_containerList (l : ContainerList) (t : Tablespace) :
    (∀ behind rest, '\'' ∉ behind → '\n' ∉ behind →
      read t false (List.splitOn '\n' (l.opening ++ (l.text ++ ')' :: behind)) ++ rest) =
        read { t with paths := t.paths ++ l.paths } false rest) ∧
    ∀ front rest, front <+: l.text → (∀ line ∈ rest.head?, '\'' ∉ line) →
      ∃ paths cause, paths <+: l.paths ∧ IsListFailure t cause ∧
        read t false (List.splitOn '\n' (l.opening ++ front) ++ rest) =
          .malformed { t with paths := t.paths ++ paths } cause := by
  refine ⟨fun behind rest hquote hfeed => ?_, fun front rest hfront hrest => ?_⟩
  · rw [read_opening]
    exact read_listText l.first l.further hquote hfeed
  · rw [read_opening]
    exact read_of_prefix l hfront hrest

/-- A list on two lines, with a comma and a parenthesis in its first path. -/
def threeContainers : ContainerList where
  first := { kind := some (.file, .space), path := "/a,b)",
             size := some { digits := { chars := ['1', '0'] }, unit := some .giga } }
  further :=
    [{ container := { indent := .space, path := "/c" } },
     { lineEnd := some .empty,
       container := { kind := some (.device, .space), path := "/d" } }]

theorem read_threeContainers :
    read { name := "TS" } false
        (["USING(FILE '/a,b)' 10G, '/c',", "DEVICE '/d') ", "EXTENTSIZE 32"].map String.toList) =
      .done { name := "TS", paths := ["/a,b)", "/c", "/d"] } ∧
    "FILE '/a,b)' 10G, '/c".toList <+: threeContainers.text ∧
    ∃ paths cause, paths <+: ["/a,b)", "/c", "/d"] ∧ IsListFailure { name := "TS" } cause ∧
      read { name := "TS" } false
          (["USING(FILE '/a,b)' 10G, '/c", "EXTENTSIZE 32"].map String.toList) =
        .malformed { name := "TS", paths := paths } cause := by
  obtain ⟨hclosed, hcut⟩ := read_containerList threeContainers { name := "TS" }
  have hprefix : "FILE '/a,b)' 10G, '/c".toList <+: threeContainers.text := by decide
  have hread := hclosed [' '] ["EXTENTSIZE 32".toList] (by decide) (by decide)
  refine ⟨?_, hprefix, ?_⟩
  · exact hread.trans rfl
  · exact hcut _ ["EXTENTSIZE 32".toList] hprefix (by decide)

end TablespaceBody

/-- A line of a tablespace that gives no containers. -/
def IsAttribute (line : List Char) : Prop :=
  containersStart? line = none ∧ isTablespaceAttribute line = true

theorem read_attributes {before : List (List Char)} (h : ∀ line ∈ before, IsAttribute line)
    (t : Tablespace) (rest : List (List Char)) :
    TablespaceBody.read t false (before ++ rest) = TablespaceBody.read t false rest := by
  induction before with
  | nil => rfl
  | cons line before ih =>
    obtain ⟨⟨hstart, hattribute⟩, hbefore⟩ := List.forall_mem_cons.1 h
    rw [List.cons_append, tablespace_read_cons]
    simp only [Bool.false_eq_true, if_false, hstart, hattribute, if_true]
    exact ih hbefore

/-- A statement gives a tablespace the paths of its list, whatever attributes stand around it. -/
theorem containersOf_eq_paths {name : String} {t : Taken} {before after : List (List Char)}
    {behind : List Char} {l : ContainerList}
    (hform : Form.ofLine? t.statement.first = some (.createTablespace name))
    (hrest : t.statement.rest = before ++
      (List.splitOn '\n' (l.opening ++ (l.text ++ ')' :: behind)) ++ after))
    (hquote : '\'' ∉ behind) (hfeed : '\n' ∉ behind) (hbefore : ∀ line ∈ before, IsAttribute line)
    (hafter : ∀ line ∈ after, IsAttribute line) : containersOf name t = l.paths := by
  have hread : TablespaceBody.read { name } false t.statement.rest =
      .done { name, paths := l.paths } := by
    rw [hrest, read_attributes hbefore, TablespaceBody.read_opening,
      ContainerList.text, TablespaceBody.read_listText _ _ hquote hfeed]
    have hend := read_attributes hafter { name, paths := l.paths } []
    rw [List.append_nil] at hend
    exact hend
  unfold containersOf
  rw [hform]
  simp only [if_true, hread]
  rfl

end SchemaTransfer.Load
