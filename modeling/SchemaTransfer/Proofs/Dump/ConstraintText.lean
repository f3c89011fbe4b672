import SchemaTransfer.Proofs.Dump.FirstLineText
import SchemaTransfer.Proofs.Dump.ListText

/-!
# Keys, foreign keys, conditions and indexes as a dump writes them

What belongs to a table is added by a statement of its own: its first line names the table, the
second says what is added, unless it is an index, and the lines of its lists and clauses follow.
-/
namespace SchemaTransfer.Dump
open Unicode Scan

/-- What happens to a row when the row that it refers to is deleted or updated. -/
inductive RowAction
  | restrict
  | noAction
  | cascade
  | setNull
  deriving DecidableEq

def RowAction.text : RowAction → String
  | restrict => "RESTRICT"
  | noAction => "NO ACTION"
  | cascade => "CASCADE"
  | setNull => "SET NULL"

/-- A clause behind the lists of a foreign key or behind a condition. -/
inductive TrailerText
  | onDelete (action : RowAction)
  | onUpdate (action : RowAction)
  | enforced (on : Bool)
  | optimization (on : Bool)
  deriving DecidableEq

namespace TrailerText

def text : TrailerText → String
  | onDelete action => "ON DELETE " ++ action.text
  | onUpdate action => "ON UPDATE " ++ action.text
  | enforced on => if on then "ENFORCED" else "NOT ENFORCED"
  | optimization on => if on then "ENABLE QUERY OPTIMIZATION" else "DISABLE QUERY OPTIMIZATION"

def line (t : TrailerText) : List Char := t.text.toList

def trailer : TrailerText → ConstraintTrailer
  | onDelete action => .onDelete action.text
  | onUpdate action => .onUpdate action.text
  | enforced on => .enforced on
  | optimization _ => .optimization

end TrailerText

structure KeyText where
  name : Option PaddedName := none
  columns : List PaddedName
  nonempty : columns ≠ [] := by simp

/-- Each clause is given once or not at all, and they stand in any order. -/
structure ForeignKeyText extends KeyText where
  refSchema : PaddedName
  refTable : PaddedName
  refColumns : List PaddedName
  refNonempty : refColumns ≠ [] := by simp
  onDelete : Option RowAction := none
  onUpdate : Option RowAction := none
  enforced : Option Bool := none
  optimization : Option Bool := none
  trailers : List TrailerText
  ordered : trailers.Perm
    ((onDelete.map .onDelete).toList ++ ((onUpdate.map .onUpdate).toList ++
      ((enforced.map .enforced).toList ++ (optimization.map .optimization).toList))) := by decide

structure CheckText where
  name : Option PaddedName := none
  condition : List Char
  opens : condition.head? = some '(' := by decide
  trimmed : trim condition = condition := by decide
  dashFree : DashFree condition := by decide +kernel
  oneLine : '\n' ∉ condition := by decide
  goesOn : condition.getLast? ≠ some ';' := by decide
  /-- The catalog does not tell whether a condition is enforced. -/
  enforced : Bool := true
  optimization : Option Bool := none

structure IndexText where
  unique : Bool := false
  schema : PaddedName
  name : PaddedName
  columns : List ItemText
  nonempty : columns ≠ [] := by simp
  included : List PaddedName := []

/-- What belongs to a table besides its columns. -/
inductive TableObject
  | primaryKey (key : KeyText)
  | unique (key : KeyText)
  | foreignKey (key : ForeignKeyText)
  | check (check : CheckText)
  | index (index : IndexText)

/-- The lines of a list of columns without directions. -/
def namesLines (names : List PaddedName) : List (List Char) :=
  listLines true (names.map ({ name := · }))

/-- The list of included columns begins behind its keyword. -/
def includeLines (names : List PaddedName) : List (List Char) :=
  match namesLines names with
  | [] => []
  | first :: rest => ("INCLUDE ".toList ++ first) :: rest

/-- What can be added by a change of the table. -/
inductive AdditionKind
  | primaryKey
  | unique
  | foreignKey
  | check

namespace AdditionKind

def words : AdditionKind → String
  | primaryKey => "PRIMARY KEY"
  | unique => "UNIQUE"
  | foreignKey => "FOREIGN KEY"
  | check => "CHECK"

def addition : AdditionKind → Option String → Addition
  | primaryKey => .primaryKey
  | unique => .unique
  | foreignKey => .foreignKey
  | check => .check

end AdditionKind

def constraintText : Option PaddedName → List Char
  | none => []
  | some name => "CONSTRAINT ".toList ++ (name.text ++ [' '])

/-- The line that says what is added. -/
def additionLine (kind : AdditionKind) (name : Option PaddedName) : List Char :=
  "ADD ".toList ++ (constraintText name ++ kind.words.toList)

namespace KeyText

def lines (k : KeyText) (kind : AdditionKind) : List (List Char) :=
  additionLine kind k.name :: namesLines k.columns

def key (k : KeyText) : Key where
  columns := k.columns.map (·.name)
  name := k.name.map (·.name)

end KeyText

namespace ForeignKeyText

def referencesLine (k : ForeignKeyText) : List Char :=
  "REFERENCES ".toList ++ PaddedName.both k.refSchema k.refTable

def lines (k : ForeignKeyText) : List (List Char) :=
  k.toKeyText.lines .foreignKey ++
    (k.referencesLine :: (namesLines k.refColumns ++ k.trailers.map (·.line)))

def foreignKey (k : ForeignKeyText) : ForeignKey where
  columns := k.columns.map (·.name)
  refSchema := k.refSchema.name
  refTable := k.refTable.name
  refColumns := k.refColumns.map (·.name)
  name := k.name.map (·.name)
  onDelete := k.onDelete.map (·.text)
  onUpdate := k.onUpdate.map (·.text)
  enforced := k.enforced.getD true

end ForeignKeyText

namespace CheckText

def lines (c : CheckText) : List (List Char) :=
  [additionLine .check c.name, c.condition, (TrailerText.enforced c.enforced).line] ++
    (c.optimization.map fun on => (TrailerText.optimization on).line).toList

def check (c : CheckText) : Check where
  condition := .ofList c.condition
  name := c.name.map (·.name)

end CheckText

namespace IndexText

def lines (i : IndexText) : List (List Char) := listLines true i.columns ++ includeLines i.included

def index (i : IndexText) : Index where
  name := i.name.name
  indexSchema := i.schema.name
  unique := i.unique
  columns := i.columns.map (·.column)
  includeColumns := i.included.map (·.name)

end IndexText

namespace TableObject

/-- The first line of the statement that adds an object to a table. -/
def first (schema table : PaddedName) : TableObject → List Char
  | index i =>
    indexWords i.unique ++
      (PaddedName.both i.schema i.name ++ (" ON ".toList ++ PaddedName.both schema table))
  | _ => "ALTER TABLE ".toList ++ PaddedName.both schema table

/-- What stands on the lines behind the first. -/
def contents : TableObject → List (List Char)
  | primaryKey k => k.lines .primaryKey
  | unique k => k.lines .unique
  | foreignKey k => k.lines
  | check c => c.lines
  | index i => i.lines

def text (o : TableObject) (schema table : PaddedName) (s : Sheet) : String :=
  s.text (o.first schema table :: o.contents)

/-- The table with the object. -/
def addTo (t : Table) : TableObject → Table
  | primaryKey k => { t with primaryKey := some k.key }
  | unique k => t.addConstraint (.unique k.key)
  | foreignKey k => t.addConstraint (.foreign k.foreignKey)
  | check c => t.addConstraint (.check c.check)
  | index i => { t with indexes := t.indexes.insert i.name.name i.index }

end TableObject

theorem content_namesLines (names : List PaddedName) :
    ∀ text ∈ namesLines names, Content text :=
  content_listLines true _

theorem content_includeLines (names : List PaddedName) :
    ∀ text ∈ includeLines names, Content text := by
  have hnames := content_namesLines names
  unfold includeLines
  cases hlines : namesLines names with
  | nil => exact fun _ h => absurd h List.not_mem_nil
  | cons first rest =>
    rw [hlines, List.forall_mem_cons] at hnames
    exact List.forall_mem_cons.2
      ⟨hnames.1.append_word (by decide) (by decide) (by decide) (by decide), hnames.2⟩

theorem constraintText_append (name : PaddedName) (rest : List Char) :
    constraintText (some name) ++ rest = "CONSTRAINT ".toList ++ (name.text ++ ' ' :: rest) := by
  have hrest : name.text ++ ' ' :: rest = (name.text ++ [' ']) ++ rest :=
    (List.append_cons name.text ' ' rest)
  rw [hrest, ← List.append_assoc]
  rfl

theorem content_additionLine (kind : AdditionKind) (name : Option PaddedName) :
    Content (additionLine kind name) := by
  have hwords : '-' ∉ kind.words.toList ∧ '\n' ∉ kind.words.toList ∧
      endsContent kind.words.toList = true := by
    cases kind <;> decide
  refine content_of_dashFree ?_ rfl (any_getLast?_append _ (any_getLast?_append _ hwords.2.2)) ?_
  · refine List.not_mem_append (by decide) (List.not_mem_append ?_ hwords.2.1)
    cases name with
    | none => exact List.not_mem_nil
    | some name =>
      exact List.not_mem_append (by decide) (List.not_mem_append name.oneLine_text (by decide))
  · have hrest : DashFree (constraintText name ++ kind.words.toList) := by
      cases name with
      | none => exact dashFree_of_not_mem hwords.1
      | some name =>
        rw [constraintText_append]
        exact (name.dashFree_text_append
          (dashFree_cons (by decide) (dashFree_of_not_mem hwords.1))).behind (by decide)
    exact hrest.behind (by decide)

theorem TrailerText.content_line (t : TrailerText) : Content t.line := by
  cases t with
  | onDelete action =>
    cases action <;> exact content_words (by decide) (by decide) (by decide) (by decide)
  | onUpdate action =>
    cases action <;> exact content_words (by decide) (by decide) (by decide) (by decide)
  | enforced on => cases on <;> exact content_words (by decide) (by decide) (by decide) (by decide)
  | optimization on =>
    cases on <;> exact content_words (by decide) (by decide) (by decide) (by decide)

theorem ForeignKeyText.content_referencesLine (k : ForeignKeyText) : Content k.referencesLine :=
  content_of_dashFree (List.not_mem_append (by decide) (PaddedName.oneLine_both _ _)) rfl
    (any_getLast?_append _ (PaddedName.endsContent_both _ _))
    (PaddedName.dashFree_both _ _ |>.behind (by decide))

theorem CheckText.eq_cons (c : CheckText) : ∃ cs, c.condition = '(' :: cs := by
  have hopens := c.opens
  cases hcondition : c.condition with
  | nil =>
    rw [hcondition] at hopens
    cases hopens
  | cons d cs =>
    rw [hcondition] at hopens
    cases hopens
    exact ⟨cs, rfl⟩

theorem CheckText.content_condition (c : CheckText) : Content c.condition := by
  have hstarts : startsContent c.condition = true := by
    rw [startsContent, c.opens]
    rfl
  refine content_of_dashFree c.oneLine hstarts ?_ c.dashFree
  obtain ⟨cs, hcondition⟩ := c.eq_cons
  have htrimmed : trimRight c.condition = c.condition := by
    have h := c.trimmed
    rwa [trim, hcondition, trimLeft_cons (by decide), ← hcondition] at h
  have hgoesOn := c.goesOn
  obtain ⟨init, d, hlast⟩ : ∃ init d, c.condition = init ++ [d] :=
    ⟨_, _, (List.dropLast_concat_getLast (hcondition ▸ List.cons_ne_nil '(' cs)).symm⟩
  rw [hlast] at htrimmed hgoesOn ⊢
  rw [List.getLast?_concat] at hgoesOn
  have hblank : isBlank d = false := isBlank_eq_false_of_trimRight htrimmed
  have hsemicolon : d ≠ ';' := fun h => hgoesOn (h ▸ rfl)
  simp [endsContent, hblank, hsemicolon]

theorem KeyText.content_lines (k : KeyText) (kind : AdditionKind) :
    ∀ text ∈ k.lines kind, Content text :=
  List.forall_mem_cons.2 ⟨content_additionLine kind k.name, content_namesLines k.columns⟩

theorem ForeignKeyText.content_lines (k : ForeignKeyText) : ∀ text ∈ k.lines, Content text :=
  List.forall_mem_append.2 ⟨k.toKeyText.content_lines .foreignKey,
    List.forall_mem_cons.2 ⟨k.content_referencesLine,
      List.forall_mem_append.2 ⟨content_namesLines k.refColumns,
        List.forall_mem_map.2 fun t _ => t.content_line⟩⟩⟩

theorem CheckText.content_lines (c : CheckText) : ∀ text ∈ c.lines, Content text := by
  refine List.forall_mem_append.2 ⟨?_, ?_⟩
  · exact List.forall_mem_cons.2 ⟨content_additionLine .check c.name,
      List.forall_mem_cons.2 ⟨c.content_condition,
        List.forall_mem_singleton.2 (TrailerText.content_line _)⟩⟩
  · cases c.optimization with
    | none => exact fun _ h => absurd h List.not_mem_nil
    | some on => exact List.forall_mem_singleton.2 (TrailerText.content_line _)

theorem IndexText.content_lines (i : IndexText) : ∀ text ∈ i.lines, Content text :=
  List.forall_mem_append.2
    ⟨content_listLines true i.columns, content_includeLines i.included⟩

theorem named?_constraintText (name : Option PaddedName) {words : List Char}
    (hstarts : startsVisible words = true) (hdiffer : differ "CONSTRAINT".toList words = true)
    (rest : List Char) :
    Addition.named? name? (' ' :: (constraintText name ++ (words ++ rest))) =
      some (name.map (·.name), words ++ rest) := by
  have hwords : trimLeft (words ++ rest) = words ++ rest := trimLeft_of_startsVisible hstarts rest
  cases name with
  | none =>
    have hnone : literal? "CONSTRAINT" (words ++ rest) = none := literal?_of_differ hdiffer rest
    have hblanks : blanks? (' ' :: (words ++ rest)) = some (words ++ rest) :=
      congrArg some hwords
    show Addition.named? name? (' ' :: (words ++ rest)) = _
    rw [Addition.named?, hblanks]
    simp only [Option.bind_eq_bind, Option.bind_some, hnone]
    rfl
  | some name =>
    have hquote : blanks? (' ' :: (name.text ++ ' ' :: (words ++ rest))) =
        some (name.text ++ ' ' :: (words ++ rest)) := by
      rw [name.text_append]
      exact blanks?_space (by decide) _
    have hblanks : blanks? (' ' :: (words ++ rest)) = some (words ++ rest) :=
      congrArg some hwords
    have hkeyword : blanks? (' ' :: ("CONSTRAINT ".toList ++
        (name.text ++ ' ' :: (words ++ rest)))) =
          some ("CONSTRAINT".toList ++ (' ' :: (name.text ++ ' ' :: (words ++ rest)))) := rfl
    rw [constraintText_append, Addition.named?, hkeyword]
    simp only [Option.bind_eq_bind, Option.bind_some, literal?_append, hquote, name.name?_text,
      hblanks]
    rfl

theorem ofLine?_additionLine (kind : AdditionKind) (name : Option PaddedName) (m : Margin) :
    Addition.ofLine? (m.around (additionLine kind name)) =
      some (kind.addition (name.map (·.name))) := by
  have hwords : startsVisible kind.words.toList = true ∧ endsVisible kind.words.toList = true ∧
      differ "CONSTRAINT".toList kind.words.toList = true := by
    cases kind <;> decide
  have hline : literal? "ADD" (trimLeft (m.around (additionLine kind name))) =
      some (' ' :: (constraintText name ++ (kind.words.toList ++ m.behind))) := by
    rw [m.trimLeft_around (content_additionLine kind name), additionLine, List.append_assoc,
      List.append_assoc]
    rfl
  let endings : List (String × (Option String → Addition)) :=
    [("PRIMARY KEY", .primaryKey), ("UNIQUE", .unique), ("FOREIGN KEY", .foreignKey),
      ("CHECK", .check)]
  have hfind : (endings.find? fun e => e.1.toList == kind.words.toList) =
      some (kind.words, kind.addition) := by
    cases kind <;> rfl
  have hending : Addition.ending? endings name? (m.around (additionLine kind name)) =
      some (kind.addition (name.map (·.name))) := by
    rw [Addition.ending?, hline]
    simp only [Option.bind_eq_bind, Option.bind_some,
      named?_constraintText name hwords.1 hwords.2.2,
      trimRight_append hwords.2.1 m.allBlank_behind, hfind]
    rfl
  show (Addition.ending? endings name? _).orElse _ = _
  rw [hending]
  rfl

theorem ForeignKeyText.references?_referencesLine (k : ForeignKeyText) (m : Margin) :
    references? (m.around k.referencesLine) = some (k.refSchema.name, k.refTable.name) := by
  have hfinish : finish? m.behind = some () := if_pos m.allBlank_behind
  have hblanks : blanks? (' ' :: (PaddedName.both k.refSchema k.refTable ++ m.behind)) =
      some (PaddedName.both k.refSchema k.refTable ++ m.behind) := by
    rw [PaddedName.both_append, PaddedName.text_append]
    exact blanks?_space (by decide) _
  have hkeyword : literal? "REFERENCES" (trimLeft (m.around k.referencesLine)) =
      some (' ' :: (PaddedName.both k.refSchema k.refTable ++ m.behind)) := by
    rw [m.trimLeft_around k.content_referencesLine]
    rfl
  rw [references?, hkeyword]
  simp only [Option.bind_eq_bind, Option.bind_some, hblanks, PaddedName.qualified?_both, hfinish]
  rfl

theorem TrailerText.ofLine?_line (t : TrailerText) (m : Margin) :
    ConstraintTrailer.ofLine? (m.around t.line) = some t.trailer := by
  rw [ConstraintTrailer.ofLine?, m.trim_around t.content_line]
  cases t with
  | onDelete action => cases action <;> rfl
  | onUpdate action => cases action <;> rfl
  | enforced on => cases on <;> rfl
  | optimization on => cases on <;> rfl

theorem CheckText.endsCheck_condition (c : CheckText) (m : Margin) :
    endsCheck (m.around c.condition) = false := by
  obtain ⟨cs, hcondition⟩ := c.eq_cons
  rw [endsCheck, m.trim_around c.content_condition, hcondition]
  rfl

theorem endsCheck_enforced (on : Bool) (m : Margin) :
    endsCheck (m.around (TrailerText.enforced on).line) = true := by
  rw [endsCheck, m.trim_around (TrailerText.content_line _)]
  cases on <;> rfl

/-- Behind its keyword the line of the first included column is the first of a list. -/
theorem include?_line (i : ItemText) (closes : Bool) (m : Margin) :
    include? (m.around ("INCLUDE ".toList ++ i.line true closes)) =
      some (i.line true closes ++ m.behind) := by
  have hcontent : Content ("INCLUDE ".toList ++ i.line true closes) :=
    (i.content_line true closes).append_word (by decide) (by decide) (by decide) (by decide)
  have hline : '\n' ∉ i.line true closes ++ m.behind :=
    List.not_mem_append (i.content_line true closes).oneLine m.feedFree.2
  have hkeyword : literal? "INCLUDE"
      (trimLeft (m.around ("INCLUDE ".toList ++ i.line true closes))) =
        some (' ' :: (i.line true closes ++ m.behind)) := by
    rw [m.trimLeft_around hcontent]
    rfl
  have hopens : trimLeft (' ' :: (i.line true closes ++ m.behind)) =
      i.line true closes ++ m.behind := rfl
  have hparenthesis : ∃ rest, literal? "(" (i.line true closes ++ m.behind) = some rest :=
    ⟨_, rfl⟩
  obtain ⟨rest, hrest⟩ := hparenthesis
  rw [include?, hkeyword]
  simp only [Option.bind_eq_bind, Option.bind_some, hopens, hrest, lastLine?_of_not_mem hline]

def PaddedName.quoted (n : PaddedName) : QuotedName := ⟨n.inside, n.doubleQuoteFree_inside⟩

@[simp] theorem PaddedName.name_quoted (n : PaddedName) : n.quoted.name = n.name :=
  n.ofList_trimRight_inside

namespace TableObject

/-- The form of the statement. -/
def form (schema table : PaddedName) : TableObject → Form
  | index i => .createIndex i.unique i.schema.name i.name.name schema.name table.name
  | _ => .alterTable schema.name table.name

theorem content_first (o : TableObject) (schema table : PaddedName) :
    Content (o.first schema table) := by
  have halter : Content ("ALTER TABLE ".toList ++ PaddedName.both schema table) :=
    content_of_dashFree (List.not_mem_append (by decide) (PaddedName.oneLine_both _ _)) rfl
      (any_getLast?_append _ (PaddedName.endsContent_both _ _))
      ((PaddedName.dashFree_both _ _).behind (by decide))
  cases o with
  | index i =>
    have hwords : '\n' ∉ indexWords i.unique ∧ '-' ∉ indexWords i.unique ∧
        startsContent (indexWords i.unique) = true := by
      cases i.unique <;> decide
    have htable : DashFree (" ON ".toList ++ PaddedName.both schema table) :=
      (PaddedName.dashFree_both _ _).behind (by decide)
    exact content_of_dashFree
      (List.not_mem_append hwords.1 (List.not_mem_append (PaddedName.oneLine_both _ _)
        (List.not_mem_append (by decide) (PaddedName.oneLine_both _ _))))
      (any_head?_append hwords.2.2 _)
      (any_getLast?_append _ (any_getLast?_append _ (any_getLast?_append _
        (PaddedName.endsContent_both _ _))))
      ((PaddedName.dashFree_both_append _ _ htable).behind hwords.2.1)
  | _ => exact halter

theorem ofLine?_first (o : TableObject) (schema table : PaddedName) (m : Margin) :
    Form.ofLine? (m.around (o.first schema table)) = some (o.form schema table) := by
  let owner : QualifiedName := ⟨schema.quoted, table.quoted⟩
  let pad : Pad := ⟨m.behind, m.allBlank_behind⟩
  have halter : Form.ofLine? ("ALTER TABLE ".toList ++ PaddedName.both schema table ++ m.behind) =
      some (.alterTable schema.name table.name) := by
    have hread := (FirstLineText.alterTable owner pad).ofLine?_text
    have hform : Form.alterTable owner.schema.name owner.name.name =
        .alterTable schema.name table.name := by simp [owner]
    rw [List.append_assoc, ← hform]
    exact hread
  rw [ofLine?_around (o.content_first schema table)]
  cases o with
  | index i =>
    let name : QualifiedName := ⟨i.schema.quoted, i.name.quoted⟩
    have hread := (FirstLineText.createIndex i.unique name .space .space owner pad).ofLine?_text
    have hform : Form.createIndex i.unique name.schema.name name.name.name owner.schema.name
        owner.name.name =
          .createIndex i.unique i.schema.name i.name.name schema.name table.name := by
      simp [name, owner]
    rw [first, List.append_assoc, List.append_assoc, List.append_assoc, form, ← hform]
    exact hread
  | _ => exact halter

theorem content_contents (o : TableObject) : ∀ text ∈ o.contents, Content text := by
  cases o with
  | primaryKey k => exact k.content_lines .primaryKey
  | unique k => exact k.content_lines .unique
  | foreignKey k => exact k.content_lines
  | check c => exact c.content_lines
  | index i => exact i.content_lines

theorem contents_ne_nil (o : TableObject) : o.contents ≠ [] := by
  cases o with
  | index i => exact List.append_ne_nil_of_left_ne_nil (listLines_ne_nil i.nonempty) _
  | _ => exact List.cons_ne_nil _ _

/-- The text is one statement, and its lines are those that were written. -/
theorem statements_text (o : TableObject) (schema table : PaddedName) (s : Sheet) :
    ∃ t, statements (linesOf (o.text schema table s)) = [t] ∧
      t.statement = ⟨(s.margin 0).around (o.first schema table),
        setIn (fun n => s.margin (n + 1)) o.contents, 1⟩ := by
  have hcontent : ∀ text ∈ o.first schema table :: o.contents, Content text :=
    List.forall_mem_cons.2 ⟨o.content_first schema table, o.content_contents⟩
  rw [text, s.linesOf_text hcontent (List.cons_ne_nil _ _)]
  exact s.statements_lines hcontent o.contents_ne_nil

end TableObject

end SchemaTransfer.Dump
