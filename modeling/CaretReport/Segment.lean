import CaretReport.PlacedLabel
import CaretReport.Span

/-!
# Caret segments

A segment is a span of the text under one underbar, together with the labels
that point into it.  Every caret lies inside the span, by its type.
-/

namespace CaretReport

/-- A span of the text under one underbar, with its labels. -/
structure Segment extends Span where
  labels : List PlacedLabel
  carets_inside : ∀ label ∈ labels,
    0 ≤ label.position ∧ label.position ≤ last - first
deriving DecidableEq

/-- Why there is no segment. -/
inductive SegmentError where
  | inverted (first last : Int)
  | caretOutside (position width : Int)
deriving DecidableEq, Repr

def SegmentError.message : SegmentError → String
  | .inverted first last =>
      wordedWith [first, last] s!"segment end {last} precedes start {first}"
  | .caretOutside position width =>
      wordedWith [position, width]
        s!"label position {position} lies outside segment width {width}"

namespace Segment

/-- The segment with the given ends and labels.  The ends are checked first,
then the carets in order. -/
def ofLabels? (first last : Int) (labels : List PlacedLabel) :
    Except SegmentError Segment :=
  if ordered : first ≤ last then
    match found : labels.find? fun label =>
        !decide (0 ≤ label.position ∧ label.position ≤ last - first) with
    | some label => .error (.caretOutside label.position (last - first))
    | none =>
        .ok
          { first, last, labels, ordered
            carets_inside := fun label member => by
              simpa using List.find?_eq_none.mp found label member }
  else
    .error (.inverted first last)

/-- Whether the segment stands at or before another: by its first position,
then by its last. -/
def notAfter (segment other : Segment) : Bool :=
  segment.toSpan.notAfter other.toSpan

def highlightSpan (segment : Segment) (label : PlacedLabel) : Span where
  first := satAdd segment.first label.offset
  last :=
    max (satAdd (satAdd segment.first label.offset) (label.length - 1))
      (satAdd segment.first label.offset)
  ordered := Int.le_max_right _ _

/-- The stretches of the text that the coloured labels colour, with their
colours, in the order of the labels. -/
def highlights (segment : Segment) : List (Span × Rgb) :=
  segment.labels.filterMap fun label =>
    label.highlightColor.map fun color => (segment.highlightSpan label, color)

end Segment

end CaretReport
