import CaretReport.Message
import CaretReport.Position

/-!
# Placed labels

A label that has been wrapped, coloured and put into a segment of the report.
Its columns count from the start of the segment.
-/

namespace CaretReport

/-- A child label, wrapped and coloured. -/
structure PlacedChild where
  message : Message
  caretColor : Option Rgb
deriving DecidableEq, Repr

/-- A label inside a segment.  `position` is the column of its caret, and
`offset` and `length` give the columns that it covers, all counted from the
start of the segment. -/
structure PlacedLabel where
  position : Int
  offset : Int
  length : Int
  message : Message
  children : List PlacedChild
  caretColor : Option Rgb
  highlightColor : Option Rgb
deriving DecidableEq, Repr

namespace PlacedLabel

def rebased (label : PlacedLabel) (delta : Int) : PlacedLabel :=
  if delta = 0 then
    label
  else
    { label with
      position := satAdd label.position delta
      offset := satAdd label.offset delta }

def hasChildren (label : PlacedLabel) : Bool :=
  !label.children.isEmpty

@[simp] theorem rebased_zero (label : PlacedLabel) : label.rebased 0 = label :=
  rfl

end PlacedLabel

end CaretReport
