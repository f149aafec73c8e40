import CaretReport.Proofs.CalloutRows
import CaretReport.Proofs.IndentedLines
import CaretReport.Proofs.SegmentGroups

/-!
# Moving a segment

The columns of a drawing count from the start of the segment, and the start
itself only comes in through the blanks on the left: every line begins with a
run of blanks up to a column that moves with the start.  So the drawing of a
segment that is moved to the right is the drawing of the segment behind as many
further blanks, line by line, for rows of all kinds.  A segment without labels
is different: the separator under its underbar is empty wherever it stands.
-/

namespace CaretReport

/-- The moved row shows its glyphs behind a number of further blanks, before the
same text. -/
structure Row.Moves (count : Nat) (row moved : Row) : Prop where
  art : row.art.Indents count moved.art
  text_eq : moved.text = row.text

theorem Row.Moves.line {count : Nat} {row moved : Row} (moves : row.Moves count moved) :
    row.line.Indents count moved.line := by
  rw [Row.line, Row.line, moves.text_eq]
  cases row.text with
  | none => exact moves.art
  | some text => exact moves.art.extend text

section Carets

variable {first : Int} {labels : List PlacedLabel}

theorem connectors_indent {count : Nat} {line moved : Line}
    (indents : line.Indents count moved) (first : Int)
    (carets : List (Int × Option Rgb)) :
    (carets.foldl (fun line (position, color) =>
        (line.padTo (first + position)).glyph .vertical (glyphStyle color))
          line).Indents count
      (carets.foldl (fun line (position, color) =>
        (line.padTo (first + count + position)).glyph .vertical (glyphStyle color))
          moved) := by
  induction carets generalizing line moved with
  | nil => exact indents
  | cons caret rest ih =>
      have padded := indents.padTo (first + caret.1)
      rw [Int.add_right_comm] at padded
      exact ih (padded.glyph .vertical (glyphStyle caret.2))

/-- An empty line that is filled up to a column has only blanks to move. -/
theorem indents_padTo_empty {column : Int} (nonneg : 0 ≤ column) (count : Nat) :
    (Line.empty.padTo column).Indents count
      (Line.empty.padTo (column + count)) := by
  have width : Line.empty.width = 0 := rfl
  rw [Line.padTo, Line.padTo, width, Int.sub_zero, Int.sub_zero]
  exact Line.indents_space_empty nonneg count

/-- A separator with connectors moves with the segment. -/
theorem separator_indents (labelled : labels ≠ [])
    (nonneg : ∀ label ∈ labels, 0 ≤ first + label.position) (count : Nat) :
    (separator first labels).Indents count (separator (first + count) labels) := by
  unfold separator
  cases carets : connectors labels with
  | nil =>
      obtain ⟨label, member⟩ := List.exists_mem_of_ne_nil labels labelled
      obtain ⟨caret, at_caret, _⟩ :=
        (exists_connector_iff labels label.position).mpr ⟨label, member, rfl⟩
      rw [carets] at at_caret
      cases at_caret
  | cons caret rest =>
      obtain ⟨label, member, same⟩ := (exists_connector_iff labels caret.1).mp
        ⟨caret, by rw [carets]; exact List.mem_cons_self, rfl⟩
      have label_nonneg := nonneg label member
      have padded := indents_padTo_empty (show 0 ≤ first + caret.1 by omega) count
      rw [Int.add_right_comm] at padded
      exact connectors_indent (padded.glyph .vertical (glyphStyle caret.2)) first rest

/-- A separator that is filled up to a column moves with the segment, also where
it has no connectors. -/
theorem separator_padTo_indents {column : Int}
    (nonneg : ∀ label ∈ labels, 0 ≤ first + label.position)
    (column_nonneg : 0 ≤ column) (count : Nat) :
    ((separator first labels).padTo column).Indents count
      ((separator (first + count) labels).padTo (column + count)) := by
  by_cases labelled : labels = []
  · rw [labelled]
    exact indents_padTo_empty column_nonneg count
  · exact (separator_indents labelled nonneg count).padTo column

theorem underbarFrom_indents {count : Nat} {line moved : Line}
    (indents : line.Indents count moved) (width previous : Int)
    (color : Option Rgb) (carets : List (Int × Option Rgb)) :
    (underbarFrom width line previous color carets).Indents count
      (underbarFrom width moved previous color carets) := by
  induction carets generalizing line moved previous color with
  | nil => exact indents.rule _ _
  | cons caret rest ih => exact ih ((indents.rule _ _).glyph _ _) _ _

theorem underbar_indents {last : Int} (nonneg : 0 ≤ first)
    (labels : List PlacedLabel) (count : Nat) :
    (underbar first last labels).Indents count
      (underbar (first + count) (last + count) labels) := by
  have width : last + count - (first + count) = last - first := by omega
  unfold underbar
  rw [width]
  exact underbarFrom_indents (Line.indents_space_empty nonneg count) _ _ _ _

end Carets

namespace Turn

/-- The turn in a segment that starts further right. -/
def moved (turn : Turn) (count : Nat) : Turn :=
  { turn with first := turn.first + count }

variable {turn : Turn}
variable (inside : ∀ label ∈ turn.label :: turn.pending,
  0 ≤ turn.first + label.position)
variable (layout : Layout) (count : Nat)

section Rows

include inside

theorem head_indents (width : Int) :
    (turn.head width).Indents count ((turn.moved count).head width) := by
  have blanks := Line.indents_space_empty (inside _ List.mem_cons_self) count
  rw [Int.add_right_comm] at blanks
  exact (blanks.glyph _ _).rule _ _

/-- The pending connectors, filled up to a column right of all carets. -/
theorem pendingLine_indents {offset : Int} (nonneg : 0 ≤ offset) :
    (turn.pendingLine.padTo (turn.first + turn.hub + offset)).Indents count
      ((turn.moved count).pendingLine.padTo
        ((turn.moved count).first + (turn.moved count).hub + offset)) := by
  have right := turn.le_hub List.mem_cons_self
  have label_nonneg := inside _ List.mem_cons_self
  have padded := separator_padTo_indents (List.forall_mem_cons.mp inside).2
    (show 0 ≤ turn.first + turn.hub + offset by omega) count
  have same : turn.first + turn.hub + offset + count =
      (turn.moved count).first + (turn.moved count).hub + offset := by
    simp only [moved, hub]
    omega
  rwa [same] at padded

theorem hubLine_indents :
    turn.hubLine.Indents count (turn.moved count).hubLine :=
  (pendingLine_indents inside count (by decide)).glyph _ _

theorem childStart_indents :
    turn.childStart.Indents count (turn.moved count).childStart :=
  pendingLine_indents inside count (by decide)

theorem plainFirst_moves :
    (turn.plainFirst layout).Moves count ((turn.moved count).plainFirst layout) where
  art := ((head_indents inside count _).glyph _ _).space _
  text_eq := rfl

theorem plainNext_moves (text : Line) :
    (turn.plainNext layout text).Moves count
      ((turn.moved count).plainNext layout text) where
  art := by
    have filled := pendingLine_indents inside count
      (show 0 ≤ turnAllowance by decide)
    exact (filled.glyph .vertical turn.style).space (layout.arrowPadding + 1)
  text_eq := rfl

theorem parentFirst_moves :
    (turn.parentFirst layout).Moves count
      ((turn.moved count).parentFirst layout) where
  art := ((((head_indents inside count _).glyph _ _).rule _ _).glyph _ _).space _
  text_eq := rfl

theorem parentNext_moves (text : Line) :
    (turn.parentNext layout text).Moves count
      ((turn.moved count).parentNext layout text) where
  art := by
    have marked := ((hubLine_indents inside count).space hubRule).glyph
      .vertical turn.style
    exact marked.space (layout.arrowPadding + 1)
  text_eq := rfl

theorem hubRow_moves :
    Row.Moves count ⟨turn.hubLine, none⟩ ⟨(turn.moved count).hubLine, none⟩ where
  art := hubLine_indents inside count
  text_eq := rfl

theorem childFirst_moves (child : PlacedChild) (isLast : Bool) :
    (turn.childFirst layout child isLast).Moves count
      ((turn.moved count).childFirst layout child isLast) where
  art := ((((childStart_indents inside count).glyph _ _).rule _ _).glyph _ _).space _
  text_eq := rfl

theorem childNext_moves (child : PlacedChild) (isLast : Bool) (text : Line) :
    (turn.childNext layout child isLast text).Moves count
      ((turn.moved count).childNext layout child isLast text) where
  art := by
    have start := childStart_indents inside count
    cases isLast with
    | true =>
        have blanks := start.space (layout.childIndent + 3)
        exact (blanks.glyph .vertical (turn.childStyle child)).space
          (layout.arrowPadding + 1)
    | false =>
        have blanks := (start.glyph .vertical turn.style).space
          (layout.childIndent + 2)
        exact (blanks.glyph .vertical (turn.childStyle child)).space
          (layout.arrowPadding + 1)
  text_eq := rfl

theorem childRows_move (child : PlacedChild) (isLast : Bool) :
    List.Forall₂ (Row.Moves count) (turn.childRows layout child isLast)
      ((turn.moved count).childRows layout child isLast) := by
  refine .cons (childFirst_moves inside layout count child isLast) ?_
  rw [List.forall₂_map_left_iff, List.forall₂_map_right_iff, List.forall₂_same]
  exact fun text _ => childNext_moves inside layout count child isLast text

theorem childrenRows_move (children : List PlacedChild) :
    List.Forall₂ (Row.Moves count) (turn.childrenRows layout children)
      ((turn.moved count).childrenRows layout children) := by
  induction children with
  | nil => exact .nil
  | cons child rest ih =>
      cases rest with
      | nil => exact childRows_move inside layout count child true
      | cons next rest =>
          exact List.rel_append (childRows_move inside layout count child false)
            (.cons (hubRow_moves inside count) ih)

variable (turn) in
/-- The callout of a label moves with the segment. -/
theorem rows_move :
    List.Forall₂ (Row.Moves count) (turn.rows layout)
      ((turn.moved count).rows layout) := by
  have same : (turn.moved count).label = turn.label := rfl
  rw [rows, rows, same]
  split
  · refine List.rel_append (.cons (parentFirst_moves inside layout count) ?_)
      (.cons (hubRow_moves inside count)
        (childrenRows_move inside layout count turn.label.children))
    rw [same, List.forall₂_map_left_iff, List.forall₂_map_right_iff,
      List.forall₂_same]
    exact fun text _ => parentNext_moves inside layout count text
  · refine .cons (plainFirst_moves inside layout count) ?_
    rw [same, List.forall₂_map_left_iff, List.forall₂_map_right_iff,
      List.forall₂_same]
    exact fun text _ => plainNext_moves inside layout count text

end Rows

end Turn

theorem callouts_move (layout : Layout) {first : Int} {labels : List PlacedLabel}
    (nonneg : ∀ label ∈ labels, 0 ≤ first + label.position) (count : Nat) :
    List.Forall₂ (Row.Moves count) (callouts layout first labels)
      (callouts layout (first + count) labels) := by
  induction labels with
  | nil => exact .nil
  | cons label rest ih =>
      have later := (List.forall_mem_cons.mp nonneg).2
      cases rest with
      | nil => exact Turn.rows_move ⟨first, label, []⟩ nonneg layout count
      | cons next rest =>
          have waiting := separator_indents (List.cons_ne_nil next rest) later count
          exact List.rel_append
            (Turn.rows_move ⟨first, label, next :: rest⟩ nonneg layout count)
            (.cons ⟨waiting, rfl⟩ (ih later))

theorem resetLast_indents {count : Nat} {lines moved : List Line}
    (indent : List.Forall₂ (Line.Indents count) lines moved) :
    List.Forall₂ (Line.Indents count) (resetLast lines) (resetLast moved) := by
  induction indent with
  | nil => exact .nil
  | cons here rest ih =>
      cases rest with
      | nil => exact .cons here.reset .nil
      | cons next later => exact .cons here ih

namespace Segment

variable {segment moved : Segment} {count : Nat}

theorem draw_indents (layout : Layout) (margin : 0 ≤ segment.first)
    (labelled : segment.labels ≠ []) (first_eq : moved.first = segment.first + count)
    (last_eq : moved.last = segment.last + count)
    (labels_eq : moved.labels = segment.labels) :
    List.Forall₂ (Line.Indents count) (segment.draw layout) (moved.draw layout) := by
  have sorted_eq : moved.sortedLabels = segment.sortedLabels := by
    rw [sortedLabels, sortedLabels, labels_eq]
  have some_label : segment.sortedLabels ≠ [] := by
    obtain ⟨label, member⟩ := List.exists_mem_of_ne_nil _ labelled
    exact List.ne_nil_of_mem (mem_sortedLabels.mpr member)
  have nonneg : ∀ label ∈ segment.sortedLabels,
      0 ≤ segment.first + label.position := by
    intro label member
    have caret := segment.carets_inside label (mem_sortedLabels.mp member)
    omega
  have rows_move : List.Forall₂ (Row.Moves count) (segment.rows layout)
      (moved.rows layout) := by
    rw [rows, rows, first_eq, last_eq, sorted_eq]
    exact .cons ⟨underbar_indents margin _ count, rfl⟩
      (.cons ⟨separator_indents some_label nonneg count, rfl⟩
        (callouts_move layout nonneg count))
  apply resetLast_indents
  rw [List.forall₂_map_left_iff, List.forall₂_map_right_iff]
  exact rows_move.imp fun _ _ moves => moves.line

/-- A segment whose ends are both moved to the right, with the same labels, is
drawn in as many lines, and each of them is rendered as further blanks and then
the line of the segment.  It can be written if that line could be and the blanks
are not too many. -/
theorem draw_moved (segment : Segment) (layout : Layout) (count : Nat)
    (margin : 0 ≤ segment.first) (labelled : segment.labels ≠ []) :
    ∃ moved, ofLabels? (segment.first + count) (segment.last + count)
        segment.labels = .ok moved ∧
      List.Forall₂ (fun line shifted =>
        shifted.render = List.replicate count ' ' ++ line.render ∧
          (shifted.check = .ok () ↔
            line.check = .ok () ∧ line.leadingBlanks + count ≤ maxPosition))
        (segment.draw layout) (moved.draw layout) := by
  have ordered : segment.first + count ≤ segment.last + count :=
    Int.add_le_add_right segment.ordered _
  have inside : ∀ label ∈ segment.labels, 0 ≤ label.position ∧
      label.position ≤ segment.last + count - (segment.first + count) := by
    intro label member
    have caret := segment.carets_inside label member
    omega
  obtain ⟨moved, made⟩ := exists_ofLabels?_eq_ok ordered inside
  obtain ⟨first_eq, last_eq, labels_eq⟩ := fields_of_ofLabels? made
  refine ⟨moved, made, ?_⟩
  apply (draw_indents layout margin labelled first_eq last_eq labels_eq).imp
  intro line shifted indents
  rw [indents.moved_eq]
  exact ⟨Line.render_indent indents.compact count,
    Line.check_indent_iff indents.compact count⟩

/-- A segment whose connectors wait at the margin, and whose messages begin with
blanks. -/
def atMargin : Segment :=
  let line (text : List Char) : Line := .ofTokens [.space 1, .text text]
  { first := 0
    last := 5
    ordered := by decide
    labels := [
      { position := 2, offset := 2, length := 2,
        message := ⟨line ['l', 'a', 't', 'e'], []⟩, children := [],
        caretColor := none, highlightColor := none },
      { position := 0, offset := 0, length := 6,
        message := ⟨line ['o', 'n', 'e'], [line ['t', 'w', 'o']]⟩,
        children := [⟨⟨line ['s', 'u', 'b'], [line ['m', 'o', 'r', 'e']]⟩, none⟩],
        caretColor := none, highlightColor := none }]
    carets_inside := by decide }

theorem draw_moved_atMargin :
    0 ≤ atMargin.first ∧ atMargin.labels ≠ [] ∧
      ∃ moved, ofLabels? 3 8 atMargin.labels = .ok moved ∧
        List.Forall₂ (fun line shifted =>
          shifted.render = List.replicate 3 ' ' ++ line.render ∧
            (shifted.check = .ok () ↔
              line.check = .ok () ∧ line.leadingBlanks + 3 ≤ maxPosition))
          (atMargin.draw {}) (moved.draw {}) := by
  have margin : 0 ≤ atMargin.first := by decide
  have labelled : atMargin.labels ≠ [] := by decide
  exact ⟨margin, labelled, draw_moved atMargin {} 3 margin labelled⟩

end Segment

end CaretReport
