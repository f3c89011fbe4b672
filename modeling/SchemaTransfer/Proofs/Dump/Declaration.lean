import SchemaTransfer.Proofs.Dump.FirstLineText
import SchemaTransfer.Proofs.Dump.Layout
import SchemaTransfer.Proofs.Dump.TableText

/-!
# Declarations of tables as a dump writes them

The first line names the table. A line for each column follows, with the options of an identity
each on a line behind it, and at last one for the storage.
-/
namespace SchemaTransfer.Dump
open Unicode Scan

namespace ColumnText

/-- The line of a column, and those of its identity. -/
def lines (c : ColumnText) (last : Bool) : List (List Char) :=
  c.header last ::
    match c.value with
    | .identity i => i.options.map IdentityOption.text ++ [orderText i.order last]
    | _ => []

end ColumnText

def columnsLines : List ColumnText → List (List Char)
  | [] => []
  | [c] => c.lines true
  | c :: columns => c.lines false ++ columnsLines columns

/-- A table as it is declared. -/
structure Declaration where
  schema : NameText
  name : NameText
  columns : List ColumnText
  nonempty : columns ≠ []
  storage : Option StorageText := none

namespace Declaration

def first (d : Declaration) : List Char :=
  "CREATE TABLE ".toList ++ (inQuotesBoth d.schema.text.toList d.name.text.toList ++ "  (".toList)

/-- What stands on the lines behind the first. -/
def contents (d : Declaration) : List (List Char) :=
  columnsLines d.columns ++ (d.storage.map (·.text)).toList

def text (d : Declaration) (s : Sheet) : String := s.text (d.first :: d.contents)

end Declaration

theorem NameText.dashFree_inQuotes (n : NameText) : DashFree (inQuotes n.text.toList) :=
  dashFree_cons (by decide) (n.dashFree.append (by decide))

theorem NameText.oneLine_inQuotes (n : NameText) : '\n' ∉ inQuotes n.text.toList := by
  simp [inQuotes, n.oneLine]

theorem endsContent_digits (ds : Digits) : endsContent ds.chars = true := by
  obtain ⟨init, c, hds, hblank⟩ := exists_concat_of_endsVisible ds.endsVisible
  have hc : isDigit c = true := ds.digits c (hds ▸ List.mem_concat_self)
  have hsemicolon : c ≠ ';' := ne_of_apply_ne isDigit (by rw [hc]; decide)
  simp [endsContent, hds, hblank, hsemicolon]

theorem content_number {w : List Char} (hline : '\n' ∉ w) (hdash : '-' ∉ w)
    (hstarts : startsContent w = true) (n : IntegerText) :
    Content (w ++ ' ' :: n.text) := by
  have hdigits {c : Char} (h : isDigit c = false) : c ∉ n.digits.chars := n.digits.ne h
  refine content_of_dashFree ?_ (any_head?_append hstarts _)
    (any_getLast?_append _ (any_getLast?_append (' ' :: n.sign.text) (endsContent_digits n.digits)))
    ((dashFree_of_not_mem hdash).append_cons (by decide)
      (DashFree.sign_append n.sign (hdigits (by decide))))
  have hsign : '\n' ∉ n.sign.text := by cases n.sign <;> decide
  simp [IntegerText.text, hline, hsign, hdigits (show isDigit '\n' = false by decide)]

theorem IdentityOption.content_text (o : IdentityOption) : Content o.text := by
  cases o with
  | start n =>
    exact content_number (w := "START WITH".toList) (by decide) (by decide) (by decide) n
  | increment n =>
    exact content_number (w := "INCREMENT BY".toList) (by decide) (by decide) (by decide) n
  | minValue n =>
    exact content_number (w := "MINVALUE".toList) (by decide) (by decide) (by decide) n
  | maxValue n =>
    exact content_number (w := "MAXVALUE".toList) (by decide) (by decide) (by decide) n
  | cycle on =>
    cases on <;> exact content_words (by decide) (by decide) (by decide) (by decide)
  | cache size =>
    cases size with
    | none => exact content_words (by decide) (by decide) (by decide) (by decide)
    | some size =>
      exact content_number (w := "CACHE".toList) (by decide) (by decide) (by decide)
        ⟨.none, size⟩

theorem content_orderText (order closes : Bool) : Content (orderText order closes) := by
  cases order <;> cases closes <;>
    exact content_words (by decide) (by decide) (by decide) (by decide)

namespace StorageText

theorem dashFree_placeText {keywords : String} (h : '-' ∉ keywords.toList)
    (place : Option NameText) {rest : List Char} (hrest : DashFree rest) :
    DashFree (placeText keywords place ++ rest) := by
  cases place with
  | none => exact hrest
  | some name =>
    have htext : placeText keywords (some name) ++ rest =
        (' ' :: (keywords.toList ++ [' '])) ++ '"' :: (name.text.toList ++ '"' :: rest) := by
      simp [placeText, inQuotes]
    have hfront : '-' ∉ ' ' :: (keywords.toList ++ [' ']) := by simp [h]
    rw [htext]
    exact (dashFree_of_not_mem hfront).append_cons (by decide)
      (name.dashFree.append_cons (by decide) hrest)

theorem dashFree_text (s : StorageText) : DashFree s.text := by
  have horganization : '-' ∉ organizationText s.byColumn := by
    rcases s.byColumn with _ | _ | _ <;> decide
  have hspaced : DashFree s.spaced :=
    dashFree_placeText (by decide) _ (dashFree_placeText (by decide) _
      (dashFree_placeText (by decide) _ (dashFree_of_not_mem horganization)))
  rw [s.spaced_eq_cons] at hspaced
  exact hspaced.tail

theorem oneLine_placeText {keywords : String} (h : '\n' ∉ keywords.toList)
    (place : Option NameText) : '\n' ∉ placeText keywords place := by
  cases place with
  | none => exact List.not_mem_nil
  | some name => simp [placeText, h, name.oneLine_inQuotes]

theorem oneLine_text (s : StorageText) : '\n' ∉ s.text := by
  have horganization : '\n' ∉ organizationText s.byColumn := by
    rcases s.byColumn with _ | _ | _ <;> decide
  have hspaced : '\n' ∉ s.spaced :=
    List.not_mem_append (oneLine_placeText (by decide) _)
      (List.not_mem_append (oneLine_placeText (by decide) _)
        (List.not_mem_append (oneLine_placeText (by decide) _) horganization))
  exact fun h => hspaced (List.mem_of_mem_tail h)

/-- The last part ends with a quote or a word. -/
theorem endsContent_spaced (s : StorageText) : endsContent s.spaced = true := by
  have hplace (keywords : String) (name : NameText) :
      endsContent (placeText keywords (some name)) = true := by
    have htext : placeText keywords (some name) =
        (' ' :: (keywords.toList ++ ' ' :: '"' :: name.text.toList)) ++ ['"'] := by
      simp [placeText, inQuotes]
    rw [htext]
    exact any_getLast?_append _ (by decide)
  have hgiven := s.given
  unfold spaced
  cases hcolumn : s.byColumn with
  | some byColumn =>
    have horganization : endsContent (organizationText (some byColumn)) = true := by
      cases byColumn <;> decide
    exact any_getLast?_append _ (any_getLast?_append _ (any_getLast?_append _ horganization))
  | none =>
    rw [organizationText, List.append_nil]
    cases hlong : s.longTablespace with
    | some name => exact any_getLast?_append _ (any_getLast?_append _ (hplace _ name))
    | none =>
      rw [placeText, List.append_nil]
      cases hindex : s.indexTablespace with
      | some name => exact any_getLast?_append _ (hplace _ name)
      | none =>
        rw [placeText, List.append_nil]
        cases htable : s.tablespace with
        | some name => exact hplace _ name
        | none => simp [htable, hindex, hlong, hcolumn] at hgiven

theorem content_text (s : StorageText) : Content s.text := by
  obtain ⟨c, cs, hspaced, hc⟩ := s.spaced_eq_cons_cons
  have hends := s.endsContent_spaced
  have htext : s.text = c :: cs := by rw [text, hspaced, List.tail_cons]
  have hletters : (['I', 'L', 'O'].all fun c => startsContent [c]) = true := by decide
  refine content_of_dashFree s.oneLine_text ?_ ?_ s.dashFree_text
  · rw [htext]
    exact List.all_eq_true.1 hletters c hc
  · rwa [s.spaced_eq_cons, htext, endsContent, List.getLast?_cons_cons, ← endsContent,
      ← htext] at hends

end StorageText

namespace ColumnText

/-- The line up to the clause about values. -/
def front (c : ColumnText) : List Char :=
  inQuotes c.name.text.toList ++ ' ' :: (c.type.text ++ notNullText c.notNull)

theorem header_eq (c : ColumnText) (closes : Bool) :
    c.header closes = c.front ++ c.value.text closes := by
  unfold header front attributesText
  rw [List.append_assoc, List.cons_append, List.append_assoc]

theorem not_mem_front {c : Char} (k : ColumnText) (hname : c ∉ k.name.text.toList)
    (hdigit : isDigit c = false) (hword : isWord c = false)
    (hother : c ∉ ['"', ' ', '(', ')', ',']) : c ∉ k.front := by
  have htype : c ∉ k.type.text :=
    k.type.not_mem_text hdigit hword fun h => hother (List.mem_cons_of_mem _ h)
  have hquote : c ≠ '"' := fun h => hother (by simp [h])
  have hspace : c ≠ ' ' := fun h => hother (by simp [h])
  have hnotNull : c ∉ notNullText k.notNull := by
    have hwords : (" NOT NULL".toList.all fun d => isWord d || d == ' ') = true := by decide
    unfold notNullText
    split
    · exact not_mem_of_all hwords (by simp [hword, hspace])
    · exact List.not_mem_nil
  simp [front, inQuotes, hname, htype, hquote, hspace, hnotNull]

theorem dashFree_front (c : ColumnText) : DashFree c.front := by
  have hnotNull : '-' ∉ notNullText c.notNull := by cases c.notNull <;> decide
  have htype : '-' ∉ c.type.text := c.type.not_mem_text (by decide) (by decide +kernel) (by decide)
  exact c.name.dashFree_inQuotes.append (by simp [htype, hnotNull])

theorem oneLine_value (v : ValueText) (closes : Bool) : '\n' ∉ v.text closes := by
  have hseparator : '\n' ∉ separatorText closes := by cases closes <;> decide
  have hgenerated (always : Bool) : '\n' ∉ generatedText always := by cases always <;> decide
  cases v with
  | nothing => exact hseparator
  | implicitDefault => exact List.not_mem_append (by decide) hseparator
  | default value =>
    exact List.not_mem_append (by decide) (List.not_mem_append value.oneLine_text hseparator)
  | generated always expression =>
    have hclosed : '\n' ∉ expression.chars ++ ([')'] ++ separatorText closes) :=
      List.not_mem_append expression.oneLine (List.not_mem_append (by decide) hseparator)
    exact List.not_mem_append (hgenerated always)
      (List.not_mem_append (s := ['(']) (by decide) hclosed)
  | identity i => exact List.not_mem_append (hgenerated i.always) (by decide)

theorem endsContent_value (v : ValueText) (closes : Bool) : endsContent (v.text closes) = true := by
  have hseparator : endsContent (separatorText closes) = true := by cases closes <;> decide
  cases v with
  | nothing => exact hseparator
  | implicitDefault => exact any_getLast?_append _ hseparator
  | default value => exact any_getLast?_append _ (any_getLast?_append _ hseparator)
  | generated always expression =>
    exact any_getLast?_append _ (any_getLast?_append ('(' :: expression.chars)
      (any_getLast?_append [')'] hseparator))
  | identity i => exact any_getLast?_append _ (by decide)

/-- Only a default value may hold two hyphens, inside a literal. -/
theorem beforeComment_header (c : ColumnText) (closes : Bool) {behind : List Char}
    (hbehind : '-' ∉ behind) :
    beforeComment false (c.front ++ (c.value.text closes ++ behind)) =
      c.front ++ (c.value.text closes ++ behind) := by
  have hfront := c.dashFree_front
  have hseparator : '-' ∉ separatorText closes ++ behind :=
    List.not_mem_append (by cases closes <;> decide) hbehind
  have hplain {cs : List Char} (h : '-' ∉ cs) :
      beforeComment false (c.front ++ cs) = c.front ++ cs :=
    beforeComment_of_dashFree (hfront.append h) false
  cases c.value with
  | nothing => exact hplain hseparator
  | implicitDefault =>
    have htext : ValueText.implicitDefault.text closes ++ behind =
        " WITH DEFAULT".toList ++ (separatorText closes ++ behind) := List.append_assoc _ _ _
    rw [htext]
    exact hplain (List.not_mem_append (by decide) hseparator)
  | default value =>
    have htext : c.front ++ ((ValueText.default value).text closes ++ behind) =
        (c.front ++ " WITH DEFAULT ".toList) ++
          (value.text ++ (separatorText closes ++ behind)) := by
      rw [List.append_assoc c.front]
      exact congrArg (c.front ++ ·)
        ((List.append_assoc _ _ _).trans (congrArg _ (List.append_assoc _ _ _)))
    have hquote : '\'' ∉ c.front ++ " WITH DEFAULT ".toList :=
      List.not_mem_append (c.not_mem_front c.name.quoteFree (by decide) (by decide +kernel)
        (by decide)) (by decide)
    rw [htext]
    exact value.beforeComment_text (hfront.append (by decide)) hquote
      (List.getLast?_append_of_ne_nil _ (by decide)) hseparator
  | generated always expression =>
    have htext : c.front ++ ((ValueText.generated always expression).text closes ++ behind) =
        (c.front ++ generatedText always) ++
          '(' :: (expression.chars ++ ([')'] ++ (separatorText closes ++ behind))) := by
      have hvalue : (ValueText.generated always expression).text closes ++ behind =
          generatedText always ++ ('(' :: (expression.chars ++ ([')'] ++ separatorText closes) ++
            behind)) := List.append_assoc _ _ _
      rw [hvalue, List.append_assoc, List.append_assoc, List.append_assoc]
    have hgenerated : '-' ∉ generatedText always := by cases always <;> decide
    rw [htext]
    exact beforeComment_of_dashFree ((hfront.append hgenerated).append_cons (by decide)
      (expression.dashFree.append (List.not_mem_append (by decide) hseparator))) false
  | identity i =>
    have hgenerated : '-' ∉ generatedText i.always := by cases i.always <;> decide
    exact hplain (List.not_mem_append (List.not_mem_append hgenerated (by decide)) hbehind)

theorem content_header (c : ColumnText) (closes : Bool) : Content (c.header closes) where
  oneLine := by
    rw [c.header_eq]
    exact fun h => (List.mem_append.1 h).elim
      (c.not_mem_front c.name.oneLine (by decide) (by decide +kernel) (by decide))
      (oneLine_value c.value closes)
  starts := rfl
  ends := by
    rw [c.header_eq]
    exact any_getLast?_append _ (endsContent_value c.value closes)
  kept behind hbehind := by
    rw [c.header_eq, List.append_assoc]
    exact c.beforeComment_header closes hbehind

end ColumnText

theorem ColumnText.content_lines (c : ColumnText) (last : Bool) :
    ∀ text ∈ c.lines last, Content text := by
  refine List.forall_mem_cons.2 ⟨c.content_header last, ?_⟩
  cases c.value with
  | identity i =>
    exact List.forall_mem_append.2 ⟨List.forall_mem_map.2 fun o _ => o.content_text,
      List.forall_mem_singleton.2 (content_orderText i.order last)⟩
  | _ => exact fun _ h => absurd h List.not_mem_nil

theorem content_columnsLines (columns : List ColumnText) :
    ∀ text ∈ columnsLines columns, Content text := by
  induction columns with
  | nil => exact fun _ h => absurd h List.not_mem_nil
  | cons c columns ih =>
    cases columns with
    | nil => exact c.content_lines true
    | cons next columns => exact List.forall_mem_append.2 ⟨c.content_lines false, ih⟩

namespace Declaration

variable (d : Declaration)

theorem content_first : Content d.first := by
  have hnames : DashFree (inQuotesBoth d.schema.text.toList d.name.text.toList) :=
    d.schema.dashFree_inQuotes.append_cons (by decide) d.name.dashFree_inQuotes
  refine content_of_dashFree ?_ (any_head?_append (by decide) _)
    (any_getLast?_append _ (any_getLast?_append _ (by decide)))
    ((hnames.append (by decide)).behind (by decide))
  exact List.not_mem_append (by decide) (List.not_mem_append
    (List.not_mem_append d.schema.oneLine_inQuotes
      (List.not_mem_append (s := ['.']) (by decide) d.name.oneLine_inQuotes)) (by decide))

theorem content_contents : ∀ text ∈ d.contents, Content text := by
  refine List.forall_mem_append.2 ⟨content_columnsLines d.columns, ?_⟩
  cases d.storage with
  | none => exact fun _ h => absurd h List.not_mem_nil
  | some s => exact List.forall_mem_singleton.2 s.content_text

theorem contents_ne_nil : d.contents ≠ [] := by
  have hlines : columnsLines d.columns ≠ [] := by
    cases hcolumns : d.columns with
    | nil => exact absurd hcolumns d.nonempty
    | cons c columns => cases columns <;> exact List.cons_ne_nil _ _
  exact List.append_ne_nil_of_left_ne_nil hlines _

/-- The text of a declaration is one statement, and its lines are those that were written. -/
theorem statements_text (s : Sheet) :
    ∃ t, statements (linesOf (d.text s)) = [t] ∧
      t.statement =
        ⟨(s.margin 0).around d.first, setIn (fun n => s.margin (n + 1)) d.contents, 1⟩ := by
  have hcontent : ∀ text ∈ d.first :: d.contents, Content text :=
    List.forall_mem_cons.2 ⟨d.content_first, d.content_contents⟩
  rw [text, s.linesOf_text hcontent (List.cons_ne_nil _ _)]
  exact s.statements_lines hcontent d.contents_ne_nil

theorem ofLine?_first (m : Margin) :
    Form.ofLine? (m.around d.first) = some (.createTable d.schema.text d.name.text) := by
  let name : QualifiedName := ⟨.ofName d.schema.isName, .ofName d.name.isName⟩
  let pad : Pad := ⟨m.behind, m.allBlank_behind⟩
  have hfirst : d.first ++ m.behind = "CREATE TABLE ".toList ++
      (name.text ++ ([' ', ' '] ++ ("(".toList ++ m.behind))) :=
    (List.append_assoc _ _ _).trans (congrArg _ (List.append_assoc _ _ _))
  have hread := (FirstLineText.createTable name ⟨[' ', ' '], rfl⟩ pad).ofLine?_text
  have hform : Form.createTable name.schema.name name.name.name =
      .createTable d.schema.text d.name.text := by simp [name]
  rw [ofLine?_around d.content_first, hfirst, ← hform]
  exact hread

end Declaration

end SchemaTransfer.Dump
