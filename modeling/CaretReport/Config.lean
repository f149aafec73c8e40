import CaretReport.Choice

/-!
# Report options

The options that control validation, wrapping, trimming and output.  Widths
are positive and paddings are never negative, by their types.
-/

namespace CaretReport

/-- What happens to a label whose span leaves the text. -/
inductive BoundsPolicy where
  | reject
  | truncateSilent
  | truncateIndicate
deriving DecidableEq, Repr

namespace BoundsPolicy

def name : BoundsPolicy → String
  | reject => "reject"
  | truncateSilent => "truncate_silent"
  | truncateIndicate => "truncate_indicate"

def all : List BoundsPolicy :=
  [reject, truncateSilent, truncateIndicate]

def truncates (policy : BoundsPolicy) : Bool :=
  policy != reject

end BoundsPolicy

/-- What the padding of a trimmed text counts. -/
inductive TrimMode where
  | words
  | chars
deriving DecidableEq, Repr

namespace TrimMode

def name : TrimMode → String
  | words => "words"
  | chars => "chars"

def all : List TrimMode :=
  [words, chars]

def ofValue? (value : Value) : Except ChoiceError TrimMode :=
  chooseByName "TrimMode" all name value

end TrimMode

/-- The context kept on either side of the labelled window. -/
structure TrimPadding where
  before : Nat := 1
  after : Nat := 1
deriving DecidableEq, Repr

/-- The column constants of the drawing below the text. -/
structure Layout where
  arrowPadding : Nat := 1
  childIndent : Nat := 3
deriving DecidableEq, Repr

def defaultLabelWidth : Nat := 30

def childWidthReduction : Nat := 4

/-- The options of a report. -/
structure Config where
  maxLabelWidth : Nat := defaultLabelWidth
  maxChildLabelWidth : Nat := defaultLabelWidth - childWidthReduction
  showRangeSuffix : Bool := false
  trimInput : Bool := true
  trimMode : TrimMode := .words
  trimPadding : TrimPadding := {}
  colorizeEchoedInput : Bool := false
  enableCaretColor : Bool := false
  boundsPolicy : BoundsPolicy := .reject
  splitOnEqualStart : Bool := true
  layout : Layout := {}
  maxLabelWidth_pos : 0 < maxLabelWidth := by decide
  maxChildLabelWidth_pos : 0 < maxChildLabelWidth := by decide
deriving DecidableEq, Repr

end CaretReport
