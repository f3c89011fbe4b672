import SchemaTransfer.Proofs.Dump.ConstraintText
import SchemaTransfer.Proofs.Load.Run

/-!
# What is added to a table is read back

A key, a foreign key, a condition or an index that is written for a table is read as it was
written, and nothing but the table changes.
-/
namespace SchemaTransfer
open Unicode Dump

namespace Load

section

variable (context : String)

/-- A list ends at its last column, whatever follows. -/
theorem columnList_listLines {directed : Bool} {items : List ItemText} (hne : items ≠ [])
    (hdirected : ∀ i ∈ items, (i.direction.isSome && !directed) = false) (opens : Bool)
    (margin : Nat → Margin) (rest : List (List Char)) :
    columnList context directed (setIn margin (listLines opens items) ++ rest) =
      .ok (items.map (·.column), rest) := by
  induction items generalizing opens margin with
  | nil => exact absurd rfl hne
  | cons i items ih =>
    rw [List.forall_mem_cons] at hdirected
    have hplain : ((i.direction.map (·.text)).isSome && !directed) = false := by
      rw [Option.isSome_map]
      exact hdirected.1
    cases items with
    | nil =>
      rw [listLines, setIn, setIn, List.singleton_append, columnList, i.ofLine?_line]
      simp only [hplain, Bool.false_eq_true, if_false, if_true]
      rfl
    | cons next items =>
      have hlines : listLines opens (i :: next :: items) =
          i.line opens false :: listLines false (next :: items) := rfl
      rw [hlines, setIn, List.cons_append, columnList, i.ofLine?_line]
      simp only [hplain, Bool.false_eq_true, if_false,
        ih (List.cons_ne_nil _ _) hdirected.2 false]
      rfl

theorem nameList_namesLines {names : List PaddedName} (hne : names ≠ []) (margin : Nat → Margin)
    (rest : List (List Char)) :
    nameList context (setIn margin (namesLines names) ++ rest) =
      .ok (names.map (·.name), rest) := by
  have hitems : names.map (fun n => ({ name := n } : ItemText)) ≠ [] := by simpa using hne
  have hplain : ∀ i ∈ names.map (fun n => ({ name := n } : ItemText)),
      (i.direction.isSome && !false) = false := List.forall_mem_map.2 fun _ _ => rfl
  rw [nameList, namesLines, columnList_listLines context hitems hplain]
  simp [Except.map, ItemText.column, Function.comp_def]

theorem trailers_lines (k : ForeignKey) (trailers : List TrailerText) (margin : Nat → Margin) :
    ForeignKeyBody.trailers context k (setIn margin (trailers.map (·.line))) =
      .ok (trailers.foldl (fun k t => ForeignKeyBody.set k t.trailer) k) := by
  induction trailers generalizing k margin with
  | nil => rfl
  | cons t trailers ih =>
    rw [List.map_cons, setIn, ForeignKeyBody.trailers, t.ofLine?_line]
    exact ih _ _

end

/-- A clause behind a foreign key is the one of its kind. -/
theorem given_of_mem_trailers {k : ForeignKeyText} {t : TrailerText} (h : t ∈ k.trailers) :
    match t with
    | .onDelete action => k.onDelete = some action
    | .onUpdate action => k.onUpdate = some action
    | .enforced on => k.enforced = some on
    | .optimization on => k.optimization = some on := by
  have hmem := k.ordered.mem_iff.1 h
  simp only [List.mem_append, Option.mem_toList, Option.map_eq_some_iff] at hmem
  rcases hmem with ⟨_, hgiven, rfl⟩ | ⟨_, hgiven, rfl⟩ | ⟨_, hgiven, rfl⟩ | ⟨_, hgiven, rfl⟩ <;>
    exact hgiven

/-- Two clauses of one kind are the same, and others change different parts of the key. -/
theorem set_comm {k : ForeignKeyText} {t u : TrailerText} (ht : t ∈ k.trailers)
    (hu : u ∈ k.trailers) (key : ForeignKey) :
    ForeignKeyBody.set (ForeignKeyBody.set key t.trailer) u.trailer =
      ForeignKeyBody.set (ForeignKeyBody.set key u.trailer) t.trailer := by
  have hsame {α : Type} {o : Option α} {a b : α} (ha : o = some a) (hb : o = some b) : a = b :=
    Option.some.inj (ha.symm.trans hb)
  have hgiven := given_of_mem_trailers ht
  have hgiven' := given_of_mem_trailers hu
  cases t <;> cases u <;> first
    | rfl
    | rw [hsame hgiven hgiven']

/-- Each clause counts, in whatever order they stand. -/
theorem foldl_trailers (k : ForeignKeyText) :
    k.trailers.foldl (fun key t => ForeignKeyBody.set key t.trailer)
        { columns := k.columns.map (·.name)
          refSchema := k.refSchema.name
          refTable := k.refTable.name
          refColumns := k.refColumns.map (·.name)
          name := k.name.map (·.name) } = k.foreignKey := by
  rw [k.ordered.foldl_eq' fun t ht u hu key => set_comm ht hu key]
  unfold ForeignKeyText.foreignKey
  cases k.onDelete <;> cases k.onUpdate <;> cases k.enforced <;> cases k.optimization <;> rfl

section

variable (context : String)

theorem key_namesLines (number : Nat) (k : KeyText) (margin : Nat → Margin) :
    AlterBody.key context number (k.name.map (·.name)) (setIn margin (namesLines k.columns)) =
      .ok k.key := by
  have hread := nameList_namesLines context k.nonempty margin []
  rw [List.append_nil] at hread
  rw [key_eq, hread]
  rfl

theorem foreignKey_lines (k : ForeignKeyText) (margin : Nat → Margin) :
    ForeignKeyBody.read context (k.name.map (·.name)) (setIn margin (namesLines k.columns ++
        (k.referencesLine :: (namesLines k.refColumns ++ k.trailers.map (·.line))))) =
      .ok k.foreignKey := by
  rw [foreignKey_read_eq, setIn_append, nameList_namesLines context k.nonempty, setIn]
  simp only [bind, Except.bind]
  rw [referencesFrom, List.headD_cons, k.references?_referencesLine, List.tail_cons, setIn_append,
    nameList_namesLines context k.refNonempty]
  simp only [bind, Except.bind]
  rw [trailers_lines, foldl_trailers]

theorem check_lines (c : CheckText) (margin : Nat → Margin) :
    CheckBody.read context (c.name.map (·.name)) (setIn margin (c.condition ::
        (TrailerText.enforced c.enforced).line ::
          (c.optimization.map fun on => (TrailerText.optimization on).line).toList)) =
      .ok c.check := by
  have hcondition (m m' : Margin) (rest : List (List Char)) :
      CheckBody.condition (m.around c.condition ::
        m'.around (TrailerText.enforced c.enforced).line :: rest) = ([c.condition], rest) := by
    rw [CheckBody.condition, c.endsCheck_condition, if_neg Bool.false_ne_true, CheckBody.condition,
      endsCheck_enforced, if_pos rfl, m.trim_around c.content_condition]
  have hrest (margin : Nat → Margin) : (setIn margin
      (c.optimization.map fun on => (TrailerText.optimization on).line).toList).find?
        (fun line => !CheckBody.isTrailer line) = none := by
    cases c.optimization with
    | none => rfl
    | some on =>
      have htrailer : CheckBody.isTrailer
          ((margin 0).around (TrailerText.optimization on).line) = true := by
        rw [CheckBody.isTrailer, TrailerText.ofLine?_line]
        rfl
      rw [Option.map_some, Option.toList_some, setIn, setIn, List.find?_singleton, htrailer]
      rfl
  have hcode : trim ([' '].intercalate [c.condition]) = c.condition := by
    rw [List.intercalate_singleton, c.trimmed]
  have hnonempty : c.condition.isEmpty = false := by
    obtain ⟨cs, hcs⟩ := c.eq_cons
    rw [hcs]
    rfl
  rw [check_read_eq, setIn, setIn, hcondition, checkFrom, hrest]
  simp only [hcode, hnonempty, Bool.false_eq_true, if_false]
  rfl

theorem included_includeLines (names : List PaddedName) (margin : Nat → Margin) :
    IndexBody.included context (setIn margin (includeLines names)) =
      .ok (names.map (·.name), []) := by
  cases names with
  | nil => rfl
  | cons name names =>
    obtain ⟨closes, rest, hlines⟩ : ∃ closes rest,
        namesLines (name :: names) = ({ name } : ItemText).line true closes :: rest := by
      cases names with
      | nil => exact ⟨true, _, rfl⟩
      | cons next names => exact ⟨false, _, rfl⟩
    -- the line is read on behind the keyword, where no blanks stand before it
    have hread := nameList_namesLines (context ++ " INCLUDE") (List.cons_ne_nil name names)
      (replaceFirst (margin 0).flush margin) []
    rw [List.append_nil, hlines] at hread
    rw [includeLines, hlines]
    dsimp only
    rw [setIn, IndexBody.included, include?_line]
    exact hread

theorem index_lines (i : IndexText) (margin : Nat → Margin) :
    IndexBody.read context i.unique i.schema.name i.name.name (setIn margin i.lines) =
      .ok i.index := by
  have hdirected : ∀ c ∈ i.columns, (c.direction.isSome && !true) = false := fun c _ => by simp
  rw [index_read_eq, IndexText.lines, setIn_append,
    columnList_listLines context i.nonempty hdirected]
  simp only [bind, Except.bind]
  rw [included_includeLines]
  rfl

/-- The line that announces an addition leaves the lines behind it to the reader of its kind. -/
theorem alterEdit_additionLine (kind : AdditionKind) (name : Option PaddedName)
    (contents : List (List Char)) (margin : Nat → Margin) (t : Table) :
    alterEdit context (setIn margin (additionLine kind name :: contents)) t =
      (AlterBody.extend context 0 t (kind.addition (name.map (·.name)))
        (setIn (fun n => margin (n + 1)) contents)).toOption := by
  rw [setIn, alterEdit, AlterBody.read, ofLine?_additionLine kind name]
  dsimp only
  rw [result?_after, result?_ofExcept]

/-- What a change of a table adds to it is read as it was written. -/
theorem alterEdit_contents {o : TableObject} (ho : ∀ i, o ≠ .index i) (margin : Nat → Margin)
    (t : Table) : alterEdit context (setIn margin o.contents) t = some (o.addTo t) := by
  cases o with
  | primaryKey k =>
    have hread := alterEdit_additionLine context .primaryKey k.name
      (namesLines k.columns) margin t
    rw [AdditionKind.addition, AlterBody.extend, key_namesLines] at hread
    exact hread
  | unique k =>
    have hread := alterEdit_additionLine context .unique k.name
      (namesLines k.columns) margin t
    rw [AdditionKind.addition, AlterBody.extend, key_namesLines] at hread
    exact hread
  | foreignKey k =>
    have hread := alterEdit_additionLine context .foreignKey k.name
      (namesLines k.columns ++ (k.referencesLine :: (namesLines k.refColumns ++
        k.trailers.map (·.line)))) margin t
    rw [AdditionKind.addition, AlterBody.extend, foreignKey_lines] at hread
    exact hread
  | check c =>
    have hread := alterEdit_additionLine context .check c.name
      (c.condition :: (TrailerText.enforced c.enforced).line ::
        (c.optimization.map fun on => (TrailerText.optimization on).line).toList) margin t
    rw [AdditionKind.addition, AlterBody.extend, check_lines] at hread
    exact hread
  | index i => exact absurd rfl (ho i)

theorem indexEdit_lines (i : IndexText) (margin : Nat → Margin) (t : Table) :
    indexEdit i.unique i.schema.name i.name.name (setIn margin i.lines) t =
      some ((TableObject.index i).addTo t) := by
  rw [indexEdit, index_lines]
  rfl

end

variable (o : TableObject) (schema table : PaddedName)

/-- The statement puts the object on its table. -/
theorem edits_tableObject (current : Context) (margin : Nat → Margin) {c : Catalog} {t : Table}
    (ht : c.table? schema.name table.name = some t) :
    c.editAll (edits current (setIn margin o.contents) (o.form schema table)) =
      some (c.insertTable schema.name table.name (o.addTo t)) := by
  have halter (ho : ∀ i, o ≠ .index i) :
      c.editAll (edits current (setIn margin o.contents) (.alterTable schema.name table.name)) =
        some (c.insertTable schema.name table.name (o.addTo t)) := by
    rw [edits, Catalog.editAll_singleton, edit_onTable c ht, alterEdit_contents _ ho]
    rfl
  cases o with
  | index i =>
    rw [TableObject.form, edits, Catalog.editAll_singleton, edit_onTable c ht]
    exact congrArg (Option.map (c.insertTable schema.name table.name)) (indexEdit_lines i margin t)
  | _ =>
    refine halter fun i h => ?_
    cases h

theorem load_tableObject (s : Sheet) (current : Context) {c : Catalog} {t : Table}
    (ht : c.table? schema.name table.name = some t) :
    load (c, current) (statements (linesOf (o.text schema table s))) =
      some (c.insertTable schema.name table.name (o.addTo t), current) := by
  obtain ⟨x, hstatements, hx⟩ := o.statements_text schema table s
  have hform : Form.ofLine? x.statement.first = some (o.form schema table) := by
    rw [hx]
    exact o.ofLine?_first schema table (s.margin 0)
  have hcontext : nextContext current (o.form schema table) = current := by cases o <;> rfl
  rw [hstatements, load_cons, advance, hform, Option.bind_some, hx,
    edits_tableObject o schema table current _ ht, hcontext]
  rfl

/-- An object that is written for a declared table is read back and put on it: a primary key takes
the place of the one before, an index that of the one of its name, and a constraint stands behind
the others. Nothing else changes. -/
theorem takeAll_tableObject (s : Sheet) (session : Session) {t : Table}
    (ht : session.catalog.table? schema.name table.name = some t) :
    let taken := session.takeAll (statements (linesOf (o.text schema table s)))
    taken.2.2 = none ∧
      taken.1.catalog.table? schema.name table.name = some (o.addTo t) ∧
      taken.1.catalog = session.catalog.insertTable schema.name table.name (o.addTo t) ∧
      taken.1.context = session.context := by
  obtain ⟨hnone, hcatalog, hcontext⟩ :=
    takeAll_of_load (load_tableObject o schema table s session.context ht)
  refine ⟨hnone, ?_, hcatalog, hcontext⟩
  rw [hcatalog]
  exact Catalog.table?_insertTable _ _ _ _

def sales : PaddedName := { name := "SALES" }

def orders : PaddedName := { name := "ORDERS" }

/-- A foreign key with padded names and with its clauses in another order than usual. -/
def ownerKey : TableObject := .foreignKey
  { name := some { name := "OWNER", pad := [' ', ' '] }
    columns := [{ name := "A" }, { name := "B" }]
    refSchema := { name := "R", pad := [' '] }
    refTable := { name := "U" }
    refColumns := [{ name := "X" }, { name := "Y" }]
    onDelete := some .setNull
    enforced := some false
    trailers := [.enforced false, .onDelete .setNull] }

theorem takeAll_ownerKey :
    ownerKey.text sales orders (stepped [0, 2, 4, 5, 2, 4, 5, 2, 2]) = unlines
        ["ALTER TABLE \"SALES\".\"ORDERS\"",
          "  ADD CONSTRAINT \"OWNER  \" FOREIGN KEY",
          "    (\"A\",",
          "     \"B\")",
          "  REFERENCES \"R \".\"U\"",
          "    (\"X\",",
          "     \"Y\")",
          "  NOT ENFORCED",
          "  ON DELETE SET NULL;"] ∧
      ∃ session : Session,
        session.catalog.table? "SALES" "ORDERS" = some { name := "ORDERS" } ∧
        (session.takeAll (statements (linesOf (ownerKey.text sales orders
          (stepped [0, 2, 4, 5, 2, 4, 5, 2, 2]))))).1.catalog.table? "SALES" "ORDERS" =
            some (ownerKey.addTo { name := "ORDERS" }) := by
  let catalog := ({} : Catalog).insertTable "SALES" "ORDERS" { name := "ORDERS" }
  have htable : catalog.table? "SALES" "ORDERS" = some { name := "ORDERS" } :=
    Catalog.table?_insertTable _ _ _ _
  obtain ⟨-, hread, -⟩ := takeAll_tableObject ownerKey sales orders
    (stepped [0, 2, 4, 5, 2, 4, 5, 2, 2]) { catalog } htable
  exact ⟨by decide +kernel, _, htable, hread⟩

/-- A table with a unique index. -/
def indexed : List (List Char) :=
  ["CREATE TABLE \"SALES\".\"ORDERS\"  (", "  \"A\" INTEGER );",
    "CREATE UNIQUE INDEX \"I\".\"X\" ON \"SALES\".\"ORDERS\"", "  (\"A\" ASC);"].map String.toList

/-- An index of the same name in another schema. -/
def namesake : TableObject := .index
  { schema := { name := "J" }
    name := { name := "X" }
    columns := [{ name := { name := "A" }, direction := some .descending }] }

/-- It is not true that an index leaves all others as they are. -/
theorem index_displaced : ¬∀ (o : TableObject) (schema table : PaddedName) (s : Sheet)
    (session : Session) (t : Table),
    session.catalog.table? schema.name table.name = some t →
    ∃ t', (session.takeAll (statements (linesOf (o.text schema table s)))).1.catalog.table?
        schema.name table.name = some t' ∧ ∀ i ∈ t.indexes.values, i ∈ t'.indexes.values := by
  intro h
  let session := (({} : Session).takeAll (statements indexed)).1
  have hbefore : (session.catalog.table? sales.name orders.name).map (·.indexes.values) =
      some [{ name := "X", indexSchema := "I", unique := true,
              columns := [⟨"A", some "ASC"⟩] }] := by decide +kernel
  have hafter : ((session.takeAll (statements (linesOf (namesake.text sales orders
      (stepped [0, 2]))))).1.catalog.table? sales.name orders.name).map (·.indexes.values) =
        some [{ name := "X", indexSchema := "J", columns := [⟨"A", some "DESC"⟩] }] := by
    decide +kernel
  obtain ⟨t, ht, hindexes⟩ := Option.map_eq_some_iff.1 hbefore
  obtain ⟨t', ht', hkept⟩ := h namesake sales orders (stepped [0, 2]) session t ht
  rw [ht', Option.map_some] at hafter
  rw [hindexes, List.forall_mem_singleton, Option.some.inj hafter] at hkept
  exact absurd hkept (by decide)

end Load

end SchemaTransfer
