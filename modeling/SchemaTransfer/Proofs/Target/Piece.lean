import SchemaTransfer.Proofs.Target.Comment
import SchemaTransfer.Proofs.Target.Token

/-!
# Names in the script to run before loading

A statement is cut into names and the texts between them. Every name in the script to run before
loading is followed by a text that no identifier goes on with, so it is read back from where it
stands exactly if it is protected.
-/
namespace SchemaTransfer

/-- A part of a statement: a text that is written as it is, or a name. -/
inductive Piece
  | text (t : String)
  | name (n : String)
  deriving DecidableEq, Inhabited

namespace Piece

def render : Piece → String
  | text t => t
  | name n => identifier n

/-- The text of pieces one behind the other. -/
def renderAll : List Piece → String
  | [] => ""
  | p :: rest => p.render ++ renderAll rest

theorem renderAll_append (ps qs : List Piece) :
    renderAll (ps ++ qs) = renderAll ps ++ renderAll qs := by
  induction ps with
  | nil => simp [renderAll]
  | cons p ps ih => rw [List.cons_append, renderAll, renderAll, ih, String.append_assoc]

def qualified (t : TableName) : List Piece := [name t.schema, text ".", name t.name]

/-- Words before a name, or nothing. -/
def clause (words : String) : Option String → List Piece
  | some n => [text (words ++ " "), name n]
  | none => []

/-- The column that owns a sequence, or nothing. -/
def ownedBy : Option (TableName × String) → List Piece
  | some (t, column) => text "\n" :: text "  OWNED BY " :: qualified t ++ [text ".", name column]
  | none => []

def column (c : ColumnItem) : List Piece :=
  [text "  ", name c.name,
    text (" " ++ " ".intercalate ([c.type] ++ (c.default.map ("DEFAULT " ++ ·)).toList ++
      if c.notNull then ["NOT NULL"] else []))]

/-- The columns of a table, each on a line of its own. -/
def columns : List ColumnItem → List Piece
  | [] => []
  | [c] => column c
  | c :: rest => column c ++ [text ",\n"] ++ columns rest

theorem renderAll_qualified (t : TableName) : renderAll (qualified t) = t.render := by
  simp [qualified, renderAll, render, TableName.render, qualifiedName, String.append_assoc]

theorem renderAll_clause (words : String) (n : Option String) :
    renderAll (clause words n) = Item.clause words n := by
  cases n <;> simp [clause, renderAll, render, Item.clause]

theorem renderAll_column (c : ColumnItem) : renderAll (column c) = c.render := by
  simp [column, renderAll, render, ColumnItem.render, String.append_assoc]

theorem renderAll_columns (cs : List ColumnItem) :
    renderAll (columns cs) = ",\n".intercalate (cs.map ColumnItem.render) := by
  induction cs using columns.induct with
  | case1 => rfl
  | case2 c => simp [columns, renderAll_column]
  | case3 c rest hne ih =>
    have hrest : rest.map ColumnItem.render ≠ [] := by
      simpa using hne
    rw [columns.eq_3 _ _ hne, renderAll_append, renderAll_append, renderAll_column, ih,
      List.map_cons, String.intercalate_cons_of_ne_nil hrest]
    simp [renderAll, render]

end Piece

/-- A statement of the script to run before loading in pieces. The kinds of statements that do not
stand there are one text. -/
def Item.pieces : Item → List Piece
  | createTablespace name location =>
    [.text "CREATE TABLESPACE ", .name name, .text (" LOCATION '" ++ location ++ "';")]
  | createRole name => [.text "CREATE ROLE ", .name name, .text ";"]
  | commentRole name text => [.text "COMMENT ON ROLE ", .name name, .text (isText text)]
  | createSchema name owner =>
    [.text "CREATE SCHEMA ", .name name] ++ Piece.clause " AUTHORIZATION" owner ++ [.text ";"]
  | createSequence schema name options owner =>
    .text "CREATE SEQUENCE " :: Piece.qualified ⟨schema, name⟩ ++
      [.text ("\n" ++ unlines options.lines)] ++ Piece.ownedBy owner ++ [.text ";"]
  | restartSequence schema name value =>
    .text "ALTER SEQUENCE " :: Piece.qualified ⟨schema, name⟩ ++
      [.text (" RESTART WITH " ++ toString value ++ ";")]
  | createDomain schema name base =>
    .text "CREATE DOMAIN " :: Piece.qualified ⟨schema, name⟩ ++ [.text (" AS " ++ base ++ ";")]
  | createTable table columns tablespace =>
    .text "CREATE TABLE " :: Piece.qualified table ++ [.text " (\n"] ++ Piece.columns columns ++
      [.text "\n)"] ++ Piece.clause "\nTABLESPACE" tablespace ++ [.text ";"]
  | commentTable table text =>
    .text "COMMENT ON TABLE " :: Piece.qualified table ++ [.text (isText text)]
  | commentColumn table column text =>
    .text "COMMENT ON COLUMN " :: Piece.qualified table ++
      [.text ".", .name column, .text (isText text)]
  | item => [.text item.render]

/-- The pieces of a script, in which every statement ends its line. -/
def Script.pieces (s : Script) : List Piece := s.flatMap fun item => item.pieces ++ [.text "\n"]

open Piece

/-- The lines of a sequence in pieces, one for the last of them if a column owns it. -/
theorem renderAll_ownedBy (first : String) {lines : List String} (h : lines ≠ [])
    (owner : Option (TableName × String)) :
    first ++ ("\n" ++ (unlines lines ++ renderAll (ownedBy owner))) =
      unlines (first :: lines ++
        (owner.map fun (t, column) => s!"  OWNED BY {t.render}.{identifier column}").toList) := by
  rw [List.cons_append, unlines, unlines,
    String.intercalate_cons_of_ne_nil (List.append_ne_nil_of_left_ne_nil h _)]
  cases owner with
  | none => simp [ownedBy, renderAll, String.append_assoc]
  | some owner =>
    obtain ⟨t, column⟩ := owner
    rw [Option.map_some, Option.toList_some,
      String.intercalate_append_of_ne_nil h (List.cons_ne_nil _ _), String.intercalate_singleton]
    simp [ownedBy, renderAll_append, renderAll_qualified, renderAll, Piece.render,
      String.append_assoc, toString]

theorem Item.renderAll_pieces (item : Item) : renderAll item.pieces = item.render := by
  cases item with
  | createSequence schema name options owner =>
    have hlines : options.lines ≠ [] := by simp [SequenceOptions.lines]
    have howner := renderAll_ownedBy s!"CREATE SEQUENCE {qualifiedName schema name}" hlines owner
    unfold Item.render
    dsimp only
    rw [← howner]
    simp only [pieces, renderAll, Piece.render, renderAll_append, renderAll_qualified,
      TableName.render, toString, String.append_empty, List.cons_append, String.append_assoc]
  | createTablespace | createRole | commentRole | createSchema | restartSequence | createDomain
  | createTable | commentTable | commentColumn =>
    unfold Item.render
    simp only [pieces, renderAll, Piece.render, renderAll_append, renderAll_qualified,
      renderAll_clause, renderAll_columns, TableName.render, toString, String.append_empty,
      String.empty_append, List.cons_append, String.append_assoc]
  | _ => exact String.append_empty

theorem Script.renderAll_pieces {s : Script} (h : s ≠ []) : renderAll s.pieces = s.render := by
  induction s with
  | nil => exact absurd rfl h
  | cons item rest ih =>
    rw [Script.pieces, List.flatMap_cons, renderAll_append, renderAll_append,
      Item.renderAll_pieces]
    by_cases hrest : rest = []
    · subst hrest
      simp [renderAll, Piece.render, Script.render, unlines]
    · rw [Script.render_cons hrest, ← ih hrest]
      simp [renderAll, Piece.render, Script.pieces]

/-- The pieces around a name of a statement. -/
theorem Script.exists_pieces {s : Script} {item : Item} (hitem : item ∈ s) {n : String}
    (hn : .name n ∈ item.pieces) : ∃ pre post, s.pieces = pre ++ .name n :: post :=
  List.append_of_mem (List.mem_flatMap.2 ⟨item, hitem, List.mem_append_left _ hn⟩)

namespace Piece

/-- A text that begins with a character that ends every identifier. -/
def endsName (t : String) : Bool := t.toList.head?.any Token.isBreak

/-- Behind every name there is a text that ends it. -/
inductive Spaced : List Piece → Prop
  | nil : Spaced []
  | text {t : String} {rest : List Piece} : Spaced rest → Spaced (text t :: rest)
  | name {n t : String} {rest : List Piece} : endsName t = true →
      Spaced (.text t :: rest) → Spaced (name n :: .text t :: rest)

variable {ps qs : List Piece} {t : String}

theorem endsName_append {s : String} (h : endsName s = true) (t : String) :
    endsName (s ++ t) = true := by
  unfold endsName at h ⊢
  rw [String.toList_append]
  cases hs : s.toList with
  | nil =>
    rw [hs] at h
    cases h
  | cons c rest =>
    rw [hs] at h
    exact h

theorem breaks_of_endsName (h : endsName t = true) : Token.Breaks t.toList := by
  intro c hc
  unfold endsName at h
  rw [Option.mem_def.1 hc] at h
  exact h

theorem Spaced.append (hps : Spaced ps) (hqs : Spaced qs) : Spaced (ps ++ qs) := by
  induction hps with
  | nil => exact hqs
  | text _ ih => exact .text ih
  | name hbreak _ ih => exact .name hbreak ih

theorem Spaced.qualified (table : TableName) (hbreak : endsName t = true)
    (h : Spaced (.text t :: qs)) : Spaced (qualified table ++ .text t :: qs) :=
  .name (by decide) (.text (.name hbreak h))

theorem Spaced.clause (words : String) (n : Option String) (hbreak : endsName t = true)
    (h : Spaced (.text t :: qs)) : Spaced (clause words n ++ .text t :: qs) := by
  cases n with
  | none => exact h
  | some n => exact .text (.name hbreak h)

theorem Spaced.ownedBy (owner : Option (TableName × String)) :
    Spaced (ownedBy owner ++ [.text ";"]) := by
  cases owner with
  | none => exact .text .nil
  | some owner =>
    exact .text (.text (.qualified owner.1 (by decide) (.text (.name (by decide) (.text .nil)))))

theorem spaced_column (c : ColumnItem) : Spaced (column c) :=
  .text (.name (endsName_append (by decide) _) (.text .nil))

theorem spaced_columns (cs : List ColumnItem) : Spaced (columns cs) := by
  induction cs using columns.induct with
  | case1 => exact .nil
  | case2 c => exact spaced_column c
  | case3 c rest hne ih =>
    rw [columns.eq_3 _ _ hne]
    exact ((spaced_column c).append (.text .nil)).append ih

theorem Spaced.tail {p : Piece} (h : Spaced (p :: ps)) : Spaced ps := by
  cases h with
  | text h => exact h
  | name _ h => exact h

theorem Spaced.breaks {pre post : List Piece} {n : String} (h : Spaced (pre ++ .name n :: post)) :
    Token.Breaks (renderAll post).toList := by
  induction pre with
  | nil =>
    cases h with
    | name hbreak _ => exact breaks_of_endsName (endsName_append hbreak _)
  | cons p pre ih => exact ih h.tail

end Piece

theorem endsName_isText (text : String) : endsName (Item.isText text) = true :=
  endsName_append (endsName_append (by decide) _) _

theorem Item.spaced_pieces (item : Item) : Spaced item.pieces := by
  cases item with
  | createTablespace name location =>
    exact .text (.name (endsName_append (endsName_append (by decide) _) _) (.text .nil))
  | createRole name => exact .text (.name (by decide) (.text .nil))
  | commentRole name text => exact .text (.name (endsName_isText text) (.text .nil))
  | createSchema name owner =>
    cases owner with
    | none => exact .text (.name (by decide) (.text .nil))
    | some owner => exact .text (.name (by decide) (.text (.name (by decide) (.text .nil))))
  | createSequence schema name options owner =>
    rw [pieces, List.append_assoc]
    exact .append (.text (.qualified _ (endsName_append (by decide) _) (.text .nil)))
      (.ownedBy owner)
  | restartSequence schema name value =>
    have hbreak := endsName_append (s := " RESTART WITH ") (by decide) (toString value)
    exact .text (.qualified _ (endsName_append hbreak _) (.text .nil))
  | createDomain schema name base =>
    have hbreak := endsName_append (s := " AS ") (by decide) base
    exact .text (.qualified _ (endsName_append hbreak _) (.text .nil))
  | createTable table columns tablespace =>
    have htable : Spaced (.text "CREATE TABLE " :: qualified table ++ [.text " (\n"]) :=
      .text (.qualified table (by decide) (.text .nil))
    rw [pieces, List.append_assoc]
    exact ((htable.append (spaced_columns columns)).append (.text .nil)).append
      (.clause _ tablespace (by decide) (.text .nil))
  | commentTable table text => exact .text (.qualified table (endsName_isText text) (.text .nil))
  | commentColumn table column text =>
    exact .text (.qualified table (by decide) (.text (.name (endsName_isText text) (.text .nil))))
  | _ => exact .text .nil

theorem Script.spaced_pieces (s : Script) : Spaced s.pieces := by
  induction s with
  | nil => exact .nil
  | cons item rest ih =>
    rw [Script.pieces, List.flatMap_cons]
    exact (item.spaced_pieces.append (.text .nil)).append ih

end SchemaTransfer
