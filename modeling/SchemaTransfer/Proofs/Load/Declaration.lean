import SchemaTransfer.Proofs.Dump.Declaration
import SchemaTransfer.Proofs.Load.Run

/-!
# Loading a declaration

A table that is declared is loaded as it was written, column by column. The only thing that can
stand in the way is a number of too many digits.
-/
namespace SchemaTransfer

namespace Dump
open Scan

namespace IntegerText

def value (n : IntegerText) : Int :=
  match n.sign with
  | .minus => -(Numeral.value n.digits.chars : Int)
  | _ => Numeral.value n.digits.chars

def fits (n : IntegerText) : Bool := n.digits.chars.length ≤ Numeral.maxDigits

end IntegerText

namespace IdentityOption

def fits : IdentityOption → Bool
  | start n => n.fits
  | increment n => n.fits
  | minValue n => n.fits
  | maxValue n => n.fits
  | cycle _ => true
  | cache none => true
  | cache (some size) => size.chars.length ≤ Numeral.maxDigits

/-- Without a cache there is one value ahead. -/
def set (identity : Identity) : IdentityOption → Identity
  | start n => { identity with start := some n.value }
  | increment n => { identity with increment := some n.value }
  | minValue n => { identity with minValue := some n.value }
  | maxValue n => { identity with maxValue := some n.value }
  | cycle on => { identity with cycle := on }
  | cache none => { identity with cache := some 1 }
  | cache (some size) => { identity with cache := some (Numeral.value size.chars : Int) }

end IdentityOption

def IdentityText.identity (i : IdentityText) : Identity :=
  { i.options.foldl IdentityOption.set { always := i.always } with order := i.order }

namespace ValueText

def fits : ValueText → Bool
  | identity i => i.options.all IdentityOption.fits
  | _ => true

def default? : ValueText → Option Default
  | nothing => none
  | implicitDefault => some .implicit
  | default value => some (.text (.ofList value.text))
  | generated _ expression => some (.ofText (.ofList expression.chars))
  | identity _ => none

def identity? : ValueText → Option Identity
  | identity i => some i.identity
  | _ => none

end ValueText

namespace ColumnText

def fits (c : ColumnText) : Bool := c.type.fits && c.value.fits

def column (c : ColumnText) (position : Int) : Column :=
  { name := c.name.text
    type := c.type.spelling
    dumpType := .ofList c.type.text
    position
    notNull := c.notNull
    default := c.value.default?
    identity := c.value.identity? }

end ColumnText

namespace Declaration

/-- No number has too many digits. -/
def fits (d : Declaration) : Bool := d.columns.all ColumnText.fits

/-- The positions of the columns are counted from one. -/
def table (d : Declaration) : Table :=
  { name := d.name.text
    columns := d.columns.mapIdx fun i c => c.column (i + 1)
    tablespace := d.storage.bind fun s => s.tablespace.map (·.text)
    indexTablespace := d.storage.bind fun s => s.indexTablespace.map (·.text)
    longTablespace := d.storage.bind fun s => s.longTablespace.map (·.text) }

end Declaration

end Dump

namespace Load
open Unicode Scan Dump

theorem integer_digits (ds : Digits) : integer ds.chars =
    if ds.chars.length ≤ Numeral.maxDigits then .ok (Numeral.value ds.chars : Int)
    else .error .longNumber := by
  have hminus : '-' ∉ ds.chars := ds.ne (by decide)
  have hread : Numeral.integer? ds.chars = (Numeral.natural? ds.chars).map Int.ofNat := by
    unfold Numeral.integer?
    split
    · next heq => exact absurd (heq ▸ List.mem_cons_self) hminus
    · rfl
  rw [integer, hread, Numeral.natural?]
  by_cases h : ds.chars.length ≤ Numeral.maxDigits <;> simp [h]

theorem integer_numeral (n : IntegerText) :
    integer n.numeral = if n.fits then .ok n.value else .error .longNumber := by
  unfold IntegerText.numeral IntegerText.value IntegerText.fits
  cases n.sign with
  | minus =>
    show integer ('-' :: n.digits.chars) = _
    have hread : Numeral.integer? ('-' :: n.digits.chars) =
        (Numeral.natural? n.digits.chars).map fun m => -(m : Int) := rfl
    rw [integer, hread, Numeral.natural?]
    by_cases h : n.digits.chars.length ≤ Numeral.maxDigits <;> simp [h]
  | plus => simpa using integer_digits n.digits
  | none => simpa using integer_digits n.digits

theorem setOption_clause (identity : Identity) (o : IdentityOption) :
    TableBody.setOption identity o.clause =
      if o.fits then .ok (o.set identity, none) else .error .longNumber := by
  have hnumber (n : IntegerText) (f : Int → Identity × Option Bool) :
      (integer n.numeral).map f = if n.fits then .ok (f n.value) else .error .longNumber := by
    rw [integer_numeral]
    split <;> rfl
  cases o with
  | start n => exact hnumber n _
  | increment n => exact hnumber n _
  | minValue n => exact hnumber n _
  | maxValue n => exact hnumber n _
  | cycle on => rfl
  | cache size =>
    cases size with
    | none => rfl
    | some size => exact hnumber ⟨.none, size⟩ _

/-- The part that the line of a column leads to. -/
def nextPart (v : ValueText) (closes : Bool) : TablePart :=
  match v with
  | .identity i => .identity { always := i.always }
  | _ => if closes then .storage else .columns

/-- The column as far as its own line tells. -/
def bareColumn (c : ColumnText) : Column := { c.column 0 with identity := none }

/-- What is read from the line of a column. -/
def columnLine (c : ColumnText) (closes : Bool) : ColumnLine :=
  ⟨c.name.text, c.type.text, c.notNull, c.value.clause, c.value.closes closes⟩

theorem columnFault?_columnLine (shown : String) (c : ColumnText) (closes : Bool) :
    TableBody.columnFault? shown (columnLine c closes) = none := by
  unfold TableBody.columnFault? columnLine
  dsimp only
  rw [c.type.isType_text, if_neg (by decide)]
  cases c.value with
  | default value =>
    have hdefault : ColumnLine.isDefault (trim value.text) = true := by
      rw [value.trim_text]
      exact value.isDefault_text
    exact if_pos hdefault
  | _ => rfl

theorem clauseEffect_columnLine (c : ColumnText) (closes : Bool) :
    TableBody.clauseEffect (columnLine c closes) = (c.value.default?, nextPart c.value closes) := by
  unfold TableBody.clauseEffect columnLine
  cases c.value with
  | default value =>
    have hne : String.ofList value.text ≠ "" := by
      intro h
      have hnil : value.text = [] := String.ofList_injective h
      have hstarts := value.startsValue_text
      rw [hnil] at hstarts
      cases hstarts
    show (some (Default.ofText (.ofList value.text)), _) = _
    rw [Default.ofText, if_neg hne]
    rfl
  | generated always expression =>
    show (some (Default.ofText (.ofList (trim expression.chars))), _) = _
    rw [expression.trimmed]
    rfl
  | _ => rfl

section

variable {shown : String} {number : Nat} {t : Table} {rest : List (List Char)}

theorem read_cons_of_ok {b b' : TableBody} {line : List Char} {events : List Event}
    (h : TableBody.step shown number b line = (b', events, none)) :
    (TableBody.read shown number b (line :: rest)).result? =
      (TableBody.read shown number b' rest).result? := by
  rw [table_read_cons, h]
  rfl

theorem read_cons_of_failure {b b' : TableBody} {line : List Char} {events : List Event}
    {failure : Failure} (h : TableBody.step shown number b line = (b', events, some failure)) :
    (TableBody.read shown number b (line :: rest)).result? = none := by
  rw [table_read_cons, h]
  rfl

theorem read_header (c : ColumnText) (closes : Bool) (m : Margin) :
    (TableBody.read shown number ⟨t, .columns⟩ (m.around (c.header closes) :: rest)).result? =
      if c.type.fits then
        (TableBody.read shown number ⟨t.addColumn (bareColumn c), nextPart c.value closes⟩
          rest).result?
      else none := by
  have hstep : TableBody.step shown number ⟨t, .columns⟩ (m.around (c.header closes)) =
      TableBody.addColumn shown ⟨t, .columns⟩ (columnLine c closes) := by
    have hline : ColumnLine.ofLine? (m.around (c.header closes)) = some (columnLine c closes) :=
      ofLine?_header c closes m.allBlank_before m.allBlank_behind
    rw [TableBody.step, hline]
  have hconvert := TypeName.convert_text c.type
  rw [TableBody.addColumn, columnFault?_columnLine, clauseEffect_columnLine] at hstep
  have htype : (columnLine c closes).type = c.type.text := rfl
  dsimp only at hstep
  rw [htype] at hstep
  cases hfits : c.type.fits with
  | true =>
    rw [hfits] at hconvert
    obtain ⟨⟨type, notices⟩, hconverted, rfl⟩ := map_eq_ok hconvert
    rw [hconverted] at hstep
    exact read_cons_of_ok hstep
  | false =>
    cases hconverted : TypeName.convert c.type.text with
    | error failure =>
      rw [hconverted] at hstep
      exact read_cons_of_failure hstep
    | ok r =>
      rw [hfits, hconverted] at hconvert
      cases hconvert

theorem read_options (options : List IdentityOption) (identity : Identity)
    (margin : Nat → Margin) :
    (TableBody.read shown number ⟨t, .identity identity⟩
        (setIn margin (options.map IdentityOption.text) ++ rest)).result? =
      if options.all IdentityOption.fits then
        (TableBody.read shown number ⟨t, .identity (options.foldl IdentityOption.set identity)⟩
          rest).result?
      else none := by
  induction options generalizing identity margin with
  | nil => rfl
  | cons o options ih =>
    have hline : IdentityClause.ofLine? ((margin 0).around o.text) = some o.clause :=
      o.ofLine?_text (margin 0).allBlank_before (margin 0).allBlank_behind
    have hstep : TableBody.step shown number ⟨t, .identity identity⟩ ((margin 0).around o.text) =
        TableBody.identityLine shown ⟨t, .identity identity⟩ identity
          ((margin 0).around o.text) := rfl
    rw [TableBody.identityLine, hline] at hstep
    dsimp only at hstep
    rw [setOption_clause] at hstep
    rw [List.map_cons, setIn, List.cons_append, List.all_cons]
    cases hfits : o.fits with
    | true =>
      rw [hfits] at hstep
      rw [read_cons_of_ok hstep, ih, Bool.true_and, List.foldl_cons]
    | false =>
      rw [hfits] at hstep
      exact read_cons_of_failure hstep

theorem read_order (identity : Identity) (order closes : Bool) (m : Margin) :
    (TableBody.read shown number ⟨t, .identity identity⟩
        (m.around (orderText order closes) :: rest)).result? =
      (TableBody.read shown number
        ⟨TableBody.closeIdentity t { identity with order }, if closes then .storage else .columns⟩
          rest).result? := by
  have hline : IdentityClause.ofLine? (m.around (orderText order closes)) =
      some (.order order closes) :=
    ofLine?_orderText order closes m.allBlank_before m.allBlank_behind
  have hstep : TableBody.step shown number ⟨t, .identity identity⟩
      (m.around (orderText order closes)) =
        TableBody.identityLine shown ⟨t, .identity identity⟩ identity
          (m.around (orderText order closes)) := rfl
  rw [TableBody.identityLine, hline] at hstep
  exact read_cons_of_ok hstep

theorem closeIdentity_addColumn (t : Table) (c : Column) (identity : Identity) :
    TableBody.closeIdentity (t.addColumn c) identity =
      t.addColumn { c with identity := some identity } := by
  simp [TableBody.closeIdentity, Table.addColumn]

/-- A column without an identity is read from one line. -/
theorem read_column_of_none (c : ColumnText) (last : Bool) (margin : Nat → Margin)
    (hlines : c.lines last = [c.header last]) (hbare : bareColumn c = c.column 0)
    (hnext : nextPart c.value last = if last then .storage else .columns)
    (hfits : c.value.fits = true) :
    (TableBody.read shown number ⟨t, .columns⟩ (setIn margin (c.lines last) ++ rest)).result? =
      if c.fits then
        (TableBody.read shown number
          ⟨t.addColumn (c.column 0), if last then .storage else .columns⟩ rest).result?
      else none := by
  rw [hlines, setIn, setIn, List.singleton_append, read_header, hbare, hnext, ColumnText.fits,
    hfits, Bool.and_true]

theorem read_column (c : ColumnText) (last : Bool) (margin : Nat → Margin) :
    (TableBody.read shown number ⟨t, .columns⟩ (setIn margin (c.lines last) ++ rest)).result? =
      if c.fits then
        (TableBody.read shown number
          ⟨t.addColumn (c.column 0), if last then .storage else .columns⟩ rest).result?
      else none := by
  obtain ⟨name, type, notNull, value⟩ := c
  cases value with
  | identity i =>
    rw [ColumnText.lines, setIn, setIn_append, setIn, setIn, List.cons_append, List.append_assoc,
      read_header, nextPart, read_options, List.singleton_append, read_order,
      closeIdentity_addColumn, ColumnText.fits, ValueText.fits]
    cases type.fits <;> cases i.options.all IdentityOption.fits <;> rfl
  | _ => exact read_column_of_none _ last margin rfl rfl rfl rfl

theorem read_columns {columns : List ColumnText} (hne : columns ≠ []) (margin : Nat → Margin) :
    (TableBody.read shown number ⟨t, .columns⟩
        (setIn margin (columnsLines columns) ++ rest)).result? =
      if columns.all ColumnText.fits then
        (TableBody.read shown number
          ⟨columns.foldl (fun t c => t.addColumn (c.column 0)) t, .storage⟩ rest).result?
      else none := by
  induction columns generalizing t margin with
  | nil => exact absurd rfl hne
  | cons c columns ih =>
    cases columns with
    | nil =>
      rw [columnsLines, read_column, List.all_cons, List.all_nil, Bool.and_true]
      rfl
    | cons next columns =>
      have hall : (c :: next :: columns).all ColumnText.fits =
          (c.fits && (next :: columns).all ColumnText.fits) := rfl
      rw [columnsLines, setIn_append, List.append_assoc, read_column, if_neg Bool.false_ne_true,
        ih (List.cons_ne_nil _ _), hall, List.foldl_cons]
      · cases c.fits <;> rfl
      · exact List.cons_ne_nil _ _

/-- Each column takes the next position. -/
theorem foldl_addColumn (columns : List ColumnText) (t : Table) :
    columns.foldl (fun t c => t.addColumn (c.column 0)) t =
      { t with columns := t.columns ++
          columns.mapIdx fun i c => c.column (t.columns.length + i + 1) } := by
  induction columns generalizing t with
  | nil => rw [List.foldl_nil, List.mapIdx_nil, List.append_nil]
  | cons c columns ih =>
    have hposition (i : Nat) : ((t.columns.length + 1 : Nat) : Int) + i + 1 =
        t.columns.length + ((i + 1 : Nat) : Int) + 1 := by omega
    have hfirst : { c.column 0 with position := (t.columns.length : Int) + 1 } =
        c.column (t.columns.length + ((0 : Nat) : Int) + 1) := by simp [ColumnText.column]
    rw [List.foldl_cons, ih, Table.addColumn, List.mapIdx_cons, ← hfirst]
    simp only [List.length_append, List.length_singleton, hposition, List.append_assoc,
      List.singleton_append]

/-- A new table takes what the storage line says. -/
theorem read_storage (name : String) {columns : List Column} (hne : columns ≠ [])
    (storage : Option StorageText) (margin : Nat → Margin) :
    (TableBody.read shown number ⟨{ name, columns }, .storage⟩
        (setIn margin (storage.map (·.text)).toList)).result?.map (·.table) =
      some { name, columns
             tablespace := storage.bind fun s => s.tablespace.map (·.text)
             indexTablespace := storage.bind fun s => s.indexTablespace.map (·.text)
             longTablespace := storage.bind fun s => s.longTablespace.map (·.text) } := by
  have hend (t : Table) (hcolumns : t.columns ≠ []) :
      (TableBody.read shown number ⟨t, .storage⟩ []).result? = some ⟨t, .storage⟩ := by
    have hfault : TableBody.endFault? shown number ⟨t, .storage⟩ = none :=
      if_neg (by simpa using hcolumns)
    rw [TableBody.read, hfault]
    rfl
  have hplace (place : Option NameText) :
      TableBody.place (place.map (·.text)) none = place.map (·.text) := by
    cases place with
    | none => rfl
    | some place => exact if_neg place.nonempty
  cases storage with
  | none =>
    show (TableBody.read shown number ⟨{ name, columns }, .storage⟩ []).result?.map _ = _
    rw [hend _ hne]
    rfl
  | some s =>
    have hstep : TableBody.step shown number ⟨{ name, columns }, .storage⟩
        ((margin 0).around s.text) = TableBody.storageLine shown number
          ⟨{ name, columns }, .storage⟩ ((margin 0).around s.text) := rfl
    have hline : Storage.ofLine? ((margin 0).around s.text) = _ :=
      Storage.ofLine?_text s (margin 0).allBlank_before (margin 0).allBlank_behind
    rw [TableBody.storageLine, hline] at hstep
    show (TableBody.read shown number ⟨{ name, columns }, .storage⟩
      [(margin 0).around s.text]).result?.map _ = _
    rw [read_cons_of_ok hstep, hend]
    · simp only [Option.map_some, Option.bind_some, TableBody.store, hplace]
    · exact hne

end

/-- The lines behind the first are those of the table, unless a number is too long. -/
theorem read_contents (shown : String) (number : Nat) (d : Declaration)
    (margin : Nat → Margin) :
    (TableBody.read shown number { table := { name := d.name.text } }
        (setIn margin d.contents)).result?.map (·.table) =
      if d.fits then some d.table else none := by
  have hcolumns : (d.columns.mapIdx fun i c => c.column (i + 1)) ≠ [] := by
    simpa using d.nonempty
  rw [Declaration.contents, setIn_append, read_columns d.nonempty, foldl_addColumn]
  simp only [List.nil_append, List.length_nil, Int.natCast_zero, Int.zero_add]
  unfold Declaration.fits
  cases d.columns.all ColumnText.fits with
  | true => exact read_storage d.name.text hcolumns d.storage _
  | false => rfl

variable (d : Declaration) (s : Sheet)

theorem load_declaration (p : Catalog × Context) : load p (statements (linesOf (d.text s))) =
    if d.fits then some (p.1.insertTable d.schema.text d.name.text d.table, p.2) else none := by
  obtain ⟨x, hstatements, hx⟩ := d.statements_text s
  have hform : Form.ofLine? x.statement.first = some (.createTable d.schema.text d.name.text) := by
    rw [hx]
    exact d.ofLine?_first (s.margin 0)
  have hread := read_contents (TableBody.display d.schema.text d.name.text) 0 d
    fun n => s.margin (n + 1)
  have hadvance : advance p x.statement =
      ((TableBody.read (TableBody.display d.schema.text d.name.text) 0
        { table := { name := d.name.text } }
          (setIn (fun n => s.margin (n + 1)) d.contents)).result?.map (·.table)).map
            fun t => (p.1.insertTable d.schema.text d.name.text t, p.2) := by
    rw [advance, hform, Option.bind_some, edits, Catalog.editAll_singleton, hx]
    dsimp only [Catalog.edit]
    cases (TableBody.read (TableBody.display d.schema.text d.name.text) 0
      { table := { name := d.name.text } }
        (setIn (fun n => s.margin (n + 1)) d.contents)).result? <;> rfl
  rw [hstatements, load_cons, hadvance, hread]
  cases d.fits <;> rfl

/-- A declaration is loaded, with whatever blanks around each of its lines, if and only if no
number is too long, and then the table that the catalog holds is the one that was written. -/
theorem takeAll_declaration (session : Session) :
    let taken := session.takeAll (statements (linesOf (d.text s)))
    (taken.2.2 = none ↔ d.fits = true) ∧
      (d.fits = true → taken.1.catalog.table? d.schema.text d.name.text = some d.table ∧
        taken.1.catalog = session.catalog.insertTable d.schema.text d.name.text d.table) := by
  have hload := load_declaration d s (session.catalog, session.context)
  rw [takeAll_load] at hload
  dsimp only
  generalize session.takeAll (statements (linesOf (d.text s))) = taken at hload ⊢
  obtain ⟨after, notices, failure⟩ := taken
  cases failure with
  | none =>
    cases hfits : d.fits with
    | false =>
      rw [hfits] at hload
      cases hload
    | true =>
      rw [hfits] at hload
      obtain ⟨hcatalog, -⟩ := Prod.mk.inj (Option.some.inj hload)
      refine ⟨iff_of_true rfl rfl, fun _ => ⟨?_, hcatalog⟩⟩
      rw [hcatalog]
      exact Catalog.table?_insertTable _ _ _ _
  | some failure =>
    cases hfits : d.fits with
    | false => exact ⟨iff_of_false (by simp) (by simp), fun h => absurd h (by simp)⟩
    | true =>
      rw [hfits] at hload
      cases hload

/-- A table with an identity, a value that looks like the end of its line, and a storage. -/
def notes : Declaration where
  schema := { text := "S" }
  name := { text := "NOTES" }
  columns :=
    [{ name := { text := "ID" }
       type := { keyword := "INTEGER" }
       notNull := true
       value := .identity
         { always := true
           options := [.start { sign := .plus, digits := { chars := ['1'] } }, .cache none]
           order := false } },
     { name := { text := "BODY" }
       type := { keyword := "CLOB", argument := some (.size { chars := ['2'] } (some .kilo)) }
       notNull := false
       value := .default (.string "a, ) --'".toList (by decide)) }]
  nonempty := List.cons_ne_nil _ _
  storage := some { tablespace := some { text := "TS" }, given := rfl }

/-- The usual number of spaces before each line, and one before the semicolon. -/
def usual : Sheet where
  margin n := .spaces ([0, 10, 12, 12, 12, 10, 9].getD n 0) (if n = 6 then 1 else 0)

theorem takeAll_notes :
    notes.text usual = unlines
        ["CREATE TABLE \"S\".\"NOTES\"  (",
          "          \"ID\" INTEGER NOT NULL GENERATED ALWAYS AS IDENTITY (",
          "            START WITH +1",
          "            NO CACHE",
          "            NO ORDER ) ,",
          "          \"BODY\" CLOB(2K) WITH DEFAULT 'a, ) --''' )",
          "         IN \"TS\" ;"] ∧
      notes.fits = true ∧
      (({} : Session).takeAll (statements (linesOf (notes.text usual)))).2.2 = none ∧
      (({} : Session).takeAll
        (statements (linesOf (notes.text usual)))).1.catalog.table? "S" "NOTES" =
          some notes.table := by
  have hfits : notes.fits = true := by decide +kernel
  obtain ⟨hloads, htable⟩ := takeAll_declaration notes usual {}
  exact ⟨by decide +kernel, hfits, hloads.2 hfits, (htable hfits).1⟩

/-- A table with a character object whose size is written with one nine more than `n`. -/
def documents (n : Nat) : Declaration where
  schema := { text := "S" }
  name := { text := "DOCUMENTS" }
  columns :=
    [{ name := { text := "BODY" }
       type :=
         { keyword := "CLOB"
           argument := some (.size
             { chars := List.replicate (n + 1) '9'
               nonempty := List.cons_ne_nil _ _
               digits := fun c hc => by
                 rw [List.eq_of_mem_replicate hc]
                 decide } none) }
       notNull := false
       value := .nothing }]
  nonempty := List.cons_ne_nil _ _

/-- Where a size has one digit more than a number may have, the table is not loaded. -/
theorem takeAll_documents :
    (({} : Session).takeAll
      (statements (linesOf ((documents Numeral.maxDigits).text usual)))).2.2 ≠ none := by
  have hfits : (documents Numeral.maxDigits).fits = false := by decide +kernel
  have hload := takeAll_load {}
    (statements (linesOf ((documents Numeral.maxDigits).text usual)))
  rw [load_declaration, hfits] at hload
  intro hnone
  rw [hnone] at hload
  cases hload

end Load

end SchemaTransfer
