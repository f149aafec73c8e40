import CaretReport.Proofs.CaretOwners
import CaretReport.Proofs.LabelOrder
import CaretReport.Proofs.SegmentLines
import Mathlib

/-!
# The colours of glyphs

Up to three labels colour the glyphs of one row: the pending labels colour the
connectors that wait, the label that is being resolved colours its turn, its hub and
its markers, and a child colours what leads from the hub to its message.  This file
says of every line which characters it shows in which colour, up to the messages,
whose own styles stay as they are.
-/

namespace CaretReport

/-- The lines are those of a message, each behind its glyphs. -/
inductive ColorsMessage (opens goes_on : List StyledChar → Prop)
    (message : Message) : List (List StyledChar) → Prop where
  | intro {glyphs : List StyledChar} {rest : List (List StyledChar)}
      (opening : opens glyphs)
      (further : List.Forall₂ (fun text line =>
        ∃ glyphs, goes_on glyphs ∧ line = glyphs ++ text.chars) message.rest rest) :
      ColorsMessage opens goes_on message ((glyphs ++ message.first.chars) :: rest)

namespace Turn

/-- The glyphs stand behind the connectors of the pending labels, which are filled
with blanks up to the limit. -/
def Behind (turn : Turn) (limit : Int) (glyphs shown : List StyledChar) : Prop :=
  ∃ waiting, Awaits turn.first limit turn.pending waiting ∧ shown = waiting ++ glyphs

/-- The connector of the label bends in its column and runs right for some
columns. -/
def bend (turn : Turn) (width : Int) : List StyledChar :=
  let corner :=
    if turn.label.position ∈ turn.pending.map PlacedLabel.position then
      Glyph.rightTee
    else
      Glyph.upCorner
  blanks (turn.first + turn.label.position) ++
    corner.colored turn.label.caretColor :: ruled width turn.label.caretColor

def childColor (turn : Turn) (child : PlacedChild) : Option Rgb :=
  child.caretColor.or turn.label.caretColor

/-- What leads from the hub to the first line of a child. -/
def childOpening (layout : Layout) (turn : Turn) (child : PlacedChild)
    (isLast : Bool) : List StyledChar :=
  let corner := if isLast then Glyph.upCorner else .rightTee
  corner.colored turn.label.caretColor ::
    ruled (layout.childIndent + 2) (turn.childColor child) ++
      (messageMark child.message).colored (turn.childColor child) ::
        blanks layout.arrowPadding

/-- What leads from the hub to the further lines of a child. -/
def childFurther (layout : Layout) (turn : Turn) (child : PlacedChild)
    (isLast : Bool) : List StyledChar :=
  let hub :=
    if isLast then .blank else Glyph.vertical.colored turn.label.caretColor
  hub :: blanks (layout.childIndent + 2) ++
    Glyph.vertical.colored (turn.childColor child) ::
      blanks (layout.arrowPadding + 1)

/-- The lines show children from a hub on: the hub in the colour of its label, and
what leads to a child in the colour of the child, or of the label if the child has
none. -/
inductive ColorsChildren (layout : Layout) (turn : Turn) (hub : Int) :
    List PlacedChild → List (List StyledChar) → Prop where
  | last {child : PlacedChild} {lines : List (List StyledChar)}
      (colors : ColorsMessage (turn.Behind hub (turn.childOpening layout child true))
        (turn.Behind hub (turn.childFurther layout child true)) child.message lines) :
      ColorsChildren layout turn hub [child] lines
  | before {child next : PlacedChild} {rest : List PlacedChild}
      {lines others : List (List StyledChar)} {between : List StyledChar}
      (colors : ColorsMessage
        (turn.Behind hub (turn.childOpening layout child false))
        (turn.Behind hub (turn.childFurther layout child false)) child.message lines)
      (separates : turn.Behind hub
        [Glyph.vertical.colored turn.label.caretColor] between)
      (goes_on : ColorsChildren layout turn hub (next :: rest) others) :
      ColorsChildren layout turn hub (child :: next :: rest)
        (lines ++ between :: others)

/-- The lines are the callout of a label, in the colour of the label.  The rightmost
caret that is not resolved yet stands in the column `last`, counted from the start
of the segment. -/
inductive ColorsCallout (layout : Layout) (turn : Turn) (last : Int) :
    List (List StyledChar) → Prop where
  | childless {lines : List (List StyledChar)} (none : turn.label.children = [])
      (colors : ColorsMessage
        (· = turn.bend (last + 1 - turn.label.position) ++
          Glyph.arrow.colored turn.label.caretColor :: blanks layout.arrowPadding)
        (turn.Behind (turn.first + last + 2)
          (Glyph.vertical.colored turn.label.caretColor ::
            blanks (layout.arrowPadding + 1)))
        turn.label.message lines) :
      ColorsCallout layout turn last lines
  | parent {lines others : List (List StyledChar)} {between : List StyledChar}
      (colors : ColorsMessage
        (· = turn.bend (last + 2 - turn.label.position) ++
          Glyph.down.colored turn.label.caretColor ::
            ruled 2 turn.label.caretColor ++
              (messageMark turn.label.message).colored turn.label.caretColor ::
                blanks layout.arrowPadding)
        (turn.Behind (turn.first + last + 3)
          (Glyph.vertical.colored turn.label.caretColor :: blanks 2 ++
            Glyph.vertical.colored turn.label.caretColor ::
              blanks (layout.arrowPadding + 1)))
        turn.label.message lines)
      (separates : turn.Behind (turn.first + last + 3)
        [Glyph.vertical.colored turn.label.caretColor] between)
      (goes_on : ColorsChildren layout turn (turn.first + last + 3)
        turn.label.children others) :
      ColorsCallout layout turn last (lines ++ between :: others)

end Turn

/-- The lines are the callouts of labels, with the connectors of those still pending
between one callout and the next. -/
inductive ColorsCallouts (layout : Layout) (first : Int) :
    List PlacedLabel → List (List StyledChar) → Prop where
  | nil : ColorsCallouts layout first [] []
  | last {label : PlacedLabel} {lines : List (List StyledChar)}
      (colors : Turn.ColorsCallout layout ⟨first, label, []⟩ label.position lines) :
      ColorsCallouts layout first [label] lines
  | before {label next : PlacedLabel} {rest : List PlacedLabel} {rightmost : Int}
      {lines others : List (List StyledChar)} {between : List StyledChar}
      (max_eq : ((label :: next :: rest).map PlacedLabel.position).max? =
        some rightmost)
      (colors : Turn.ColorsCallout layout ⟨first, label, next :: rest⟩ rightmost
        lines)
      (separates : Awaits first 0 (next :: rest) between)
      (goes_on : ColorsCallouts layout first (next :: rest) others) :
      ColorsCallouts layout first (label :: next :: rest) (lines ++ between :: others)

/-- The row has glyphs of this kind. -/
def Row.Draws (row : Row) (kind : List StyledChar → Prop) : Prop :=
  ∃ glyphs, row.art.Draws glyphs ∧ kind glyphs

def Row.chars (row : Row) : List StyledChar :=
  row.line.chars

theorem Row.chars_of_draws {row : Row} {glyphs : List StyledChar}
    (draws : row.art.Draws glyphs) {text : Line} (beside : row.text = some text) :
    row.chars = glyphs ++ text.chars := by
  rw [chars, line, beside]
  exact draws.chars_extend text

theorem colorsMessage_of_draws {opens goes_on : List StyledChar → Prop} {row : Row}
    {next : Line → Row} {message : Message} (opening : row.Draws opens)
    (further : ∀ text, (next text).Draws goes_on)
    (beside : row.text = some message.first)
    (besides : ∀ text, (next text).text = some text) :
    ColorsMessage opens goes_on message
      ((row :: message.rest.map next).map Row.chars) := by
  obtain ⟨glyphs, draws, kind⟩ := opening
  rw [List.map_cons, Row.chars_of_draws draws beside]
  refine .intro kind ?_
  rw [List.map_map, List.forall₂_map_right_iff, List.forall₂_same]
  intro text _
  obtain ⟨glyphs, draws, kind⟩ := further text
  exact ⟨glyphs, kind, Row.chars_of_draws draws (besides text)⟩

namespace Turn

variable {turn : Turn} (layout : Layout)

theorem head_draws (turn : Turn) (width : Int) :
    (turn.head width).Draws (turn.bend width) := by
  have corner_eq : turn.corner =
      if turn.label.position ∈ turn.pending.map PlacedLabel.position then
        Glyph.rightTee
      else
        Glyph.upCorner := by
    simp [corner, sharesPosition]
  have bent := ((Line.draws_empty.space (turn.first + turn.label.position)).glyph
    turn.corner turn.label.caretColor).rule width turn.label.caretColor
  rw [List.nil_append, List.append_assoc, List.singleton_append] at bent
  rw [bend, ← corner_eq]
  exact bent

theorem plainFirst_draws :
    (turn.plainFirst layout).Draws
      (· = turn.bend (turn.hub + 1 - turn.label.position) ++
        Glyph.arrow.colored turn.label.caretColor :: blanks layout.arrowPadding) := by
  have pointed := (turn.head_draws (turn.hub + 1 - turn.label.position)).glyph .arrow
    turn.label.caretColor
  refine ⟨_, pointed.space layout.arrowPadding, ?_⟩
  rw [List.append_assoc, List.singleton_append]

theorem parentFirst_draws :
    (turn.parentFirst layout).Draws
      (· = turn.bend (turn.hub + 2 - turn.label.position) ++
        Glyph.down.colored turn.label.caretColor ::
          ruled 2 turn.label.caretColor ++
            (messageMark turn.label.message).colored turn.label.caretColor ::
              blanks layout.arrowPadding) := by
  have hubbed := ((turn.head_draws (turn.hub + 2 - turn.label.position)).glyph .down
    turn.label.caretColor).rule 2 turn.label.caretColor
  have pointed := hubbed.glyph (messageMark turn.label.message) turn.label.caretColor
  refine ⟨_, pointed.space layout.arrowPadding, ?_⟩
  simp

section Pending

variable (sorted : turn.pending.Pairwise fun label other =>
  label.position ≤ other.position)

include sorted

/-- The pending connectors, filled up to a column. -/
theorem exists_waiting (column : Int) :
    ∃ waiting, (turn.pendingLine.padTo column).Draws waiting ∧
      Awaits turn.first column turn.pending waiting := by
  obtain ⟨shown, draws, awaits⟩ := separator_draws sorted turn.first
  exact ⟨_, draws.padTo column, awaits.padTo column⟩

theorem plainNext_draws (text : Line) :
    (turn.plainNext layout text).Draws (turn.Behind (turn.first + turn.hub + 2)
      (Glyph.vertical.colored turn.label.caretColor ::
        blanks (layout.arrowPadding + 1))) := by
  obtain ⟨waiting, draws, awaits⟩ :=
    exists_waiting sorted (turn.first + turn.hub + turnAllowance)
  have marked := draws.glyph .vertical turn.label.caretColor
  have spaced := marked.space (layout.arrowPadding + 1)
  refine ⟨_, spaced, waiting, awaits, ?_⟩
  rw [List.append_assoc, List.singleton_append]

theorem hubLine_draws :
    Row.Draws ⟨turn.hubLine, none⟩ (turn.Behind (turn.first + turn.hub + 3)
      [Glyph.vertical.colored turn.label.caretColor]) := by
  obtain ⟨waiting, draws, awaits⟩ :=
    exists_waiting sorted (turn.first + turn.hub + hubOffset)
  exact ⟨_, draws.glyph .vertical turn.label.caretColor, waiting, awaits, rfl⟩

theorem parentNext_draws (text : Line) :
    (turn.parentNext layout text).Draws (turn.Behind (turn.first + turn.hub + 3)
      (Glyph.vertical.colored turn.label.caretColor :: blanks 2 ++
        Glyph.vertical.colored turn.label.caretColor ::
          blanks (layout.arrowPadding + 1))) := by
  obtain ⟨_, draws, waiting, awaits, rfl⟩ := hubLine_draws sorted
  have marked := (draws.space hubRule).glyph .vertical turn.label.caretColor
  have spaced := marked.space (layout.arrowPadding + 1)
  refine ⟨_, spaced, waiting, awaits, ?_⟩
  simp [hubRule]

theorem childFirst_draws (child : PlacedChild) (isLast : Bool) :
    (turn.childFirst layout child isLast).Draws
      (turn.Behind (turn.first + turn.hub + 3)
        (turn.childOpening layout child isLast)) := by
  obtain ⟨waiting, draws, awaits⟩ :=
    exists_waiting sorted (turn.first + turn.hub + hubOffset)
  have ruled := (draws.glyph (if isLast then .upCorner else .rightTee)
    turn.label.caretColor).rule (layout.childIndent + 2) (turn.childColor child)
  have pointed := ruled.glyph (messageMark child.message) (turn.childColor child)
  refine ⟨_, pointed.space layout.arrowPadding, waiting, awaits, ?_⟩
  simp [childOpening]

theorem childNext_draws (child : PlacedChild) (isLast : Bool) (text : Line) :
    (turn.childNext layout child isLast text).Draws
      (turn.Behind (turn.first + turn.hub + 3)
        (turn.childFurther layout child isLast)) := by
  obtain ⟨waiting, draws, awaits⟩ :=
    exists_waiting sorted (turn.first + turn.hub + hubOffset)
  cases isLast with
  | true =>
      -- The run of blanks starts in the hub column.
      have indent : blanks (layout.childIndent + 3) =
          .blank :: blanks (layout.childIndent + 2) := rfl
      have marked := (draws.space (layout.childIndent + 3)).glyph .vertical
        (turn.childColor child)
      have spaced := marked.space (layout.arrowPadding + 1)
      refine ⟨_, spaced, waiting, awaits, ?_⟩
      simp [childFurther, indent]
  | false =>
      have marked := ((draws.glyph .vertical turn.label.caretColor).space
        (layout.childIndent + 2)).glyph .vertical (turn.childColor child)
      have spaced := marked.space (layout.arrowPadding + 1)
      refine ⟨_, spaced, waiting, awaits, ?_⟩
      simp [childFurther]

theorem hubLine_behind :
    turn.Behind (turn.first + turn.hub + 3)
      [Glyph.vertical.colored turn.label.caretColor]
        (Row.chars ⟨turn.hubLine, none⟩) := by
  obtain ⟨_, draws, behind⟩ := hubLine_draws sorted
  rwa [← draws.chars_eq] at behind

theorem childRows_color (child : PlacedChild) (isLast : Bool) :
    ColorsMessage
      (turn.Behind (turn.first + turn.hub + 3)
        (turn.childOpening layout child isLast))
      (turn.Behind (turn.first + turn.hub + 3)
        (turn.childFurther layout child isLast)) child.message
      ((turn.childRows layout child isLast).map Row.chars) :=
  colorsMessage_of_draws (childFirst_draws layout sorted child isLast)
    (childNext_draws layout sorted child isLast) rfl fun _ => rfl

theorem childrenRows_color {children : List PlacedChild} (nonempty : children ≠ []) :
    ColorsChildren layout turn (turn.first + turn.hub + 3) children
      ((turn.childrenRows layout children).map Row.chars) := by
  induction children with
  | nil => exact absurd rfl nonempty
  | cons child rest ih =>
      cases rest with
      | nil => exact .last (childRows_color layout sorted child true)
      | cons next rest =>
          rw [childrenRows, List.map_append, List.map_cons]
          exact .before (childRows_color layout sorted child false)
            (hubLine_behind sorted) (ih (List.cons_ne_nil next rest))

theorem rows_color :
    ColorsCallout layout turn turn.hub ((turn.rows layout).map Row.chars) := by
  unfold rows
  split
  · rename_i children
    have nonempty : turn.label.children ≠ [] := by
      simpa [PlacedLabel.hasChildren] using children
    rw [List.map_append, List.map_cons]
    refine .parent ?_ (hubLine_behind sorted)
      (childrenRows_color layout sorted nonempty)
    exact colorsMessage_of_draws (parentFirst_draws layout)
      (parentNext_draws layout sorted) rfl fun _ => rfl
  · rename_i childless
    have none : turn.label.children = [] := by
      simpa [PlacedLabel.hasChildren] using childless
    refine .childless none ?_
    exact colorsMessage_of_draws (plainFirst_draws layout)
      (plainNext_draws layout sorted) rfl fun _ => rfl

end Pending

end Turn

theorem callouts_color (layout : Layout) (first : Int) {labels : List PlacedLabel}
    (sorted : labels.Pairwise fun label other => label.position ≤ other.position) :
    ColorsCallouts layout first labels
      ((callouts layout first labels).map Row.chars) := by
  induction labels with
  | nil => exact .nil
  | cons label rest ih =>
      obtain ⟨_, rest_sorted⟩ := List.pairwise_cons.mp sorted
      have colors := Turn.rows_color layout
        (show (Turn.mk first label rest).pending.Pairwise _ from rest_sorted)
      cases rest with
      | nil => exact .last colors
      | cons next rest =>
          obtain ⟨shown, draws, awaits⟩ := separator_draws rest_sorted first
          rw [← draws.chars_eq] at awaits
          rw [callouts, List.map_append, List.map_cons]
          exact .before (Turn.mk first label (next :: rest)).max?_positions colors
            awaits (ih rest_sorted)

/-- The labels in the order of their carets, in which labels that share a position
keep the order they had. -/
structure SortsByPosition (labels ordered : List PlacedLabel) : Prop where
  perm : ordered.Perm labels
  increasing : ordered.Pairwise fun label other => label.position ≤ other.position
  stable : ∀ position : Int,
    ordered.filter (fun label => decide (label.position = position)) =
      labels.filter fun label => decide (label.position = position)

namespace Segment

theorem sortsByPosition_sortedLabels (segment : Segment) :
    SortsByPosition segment.labels segment.sortedLabels where
  perm := List.mergeSort_perm _ _
  increasing := pairwise_sortedLabels
  stable := by
    apply filter_mergeSort PlacedLabel.position_trans PlacedLabel.position_total
    intro label other same
    exact decide_eq_true (Int.le_of_eq same)

/-- Every glyph that is drawn for a segment has the colour of its owner. -/
theorem draw_colors_glyphs (segment : Segment) (layout : Layout) :
    ∃ ordered, SortsByPosition segment.labels ordered ∧
      ∃ bar between lines,
        (segment.draw layout).map Line.chars = bar :: between :: lines ∧
          Bars segment.first segment.last ordered bar ∧
          Awaits segment.first 0 ordered between ∧
          ColorsCallouts layout segment.first ordered lines := by
  have sorted := segment.sortsByPosition_sortedLabels
  obtain ⟨bar, bar_draws, bars⟩ := underbar_draws segment.ordered sorted.increasing
    fun label member => segment.carets_inside label (mem_sortedLabels.mp member)
  obtain ⟨between, between_draws, awaits⟩ :=
    separator_draws sorted.increasing segment.first
  refine ⟨segment.sortedLabels, sorted, bar, between, _, ?_, bars, awaits,
    callouts_color layout segment.first sorted.increasing⟩
  rw [map_draw layout fun _ => Line.chars_reset, rows, List.map_cons, List.map_cons]
  exact congrArg₂ List.cons bar_draws.chars_eq
    (congrArg (List.cons · _) between_draws.chars_eq)

/-- The second of two labels at one caret takes over the connector. -/
example :
    let red : Option Rgb := some ⟨255, 0, 0⟩
    let label (color : Option Rgb) : PlacedLabel :=
      { position := 0, offset := 0, length := 1, message := ⟨.empty, []⟩,
        children := [], caretColor := color, highlightColor := none }
    (callouts {} 1 [label red, label none]).map Row.chars = [
      [.blank, Glyph.rightTee.colored red, Glyph.rule.colored red,
        Glyph.arrow.colored red, .blank],
      [.blank, Glyph.vertical.colored none],
      [.blank, Glyph.upCorner.colored none, Glyph.rule.colored none,
        Glyph.arrow.colored none, .blank]] := by
  cbv

end Segment

end CaretReport
