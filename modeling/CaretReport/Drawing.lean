import CaretReport.Config
import CaretReport.Segment

/-!
# Drawing a segment

A segment is drawn as an underbar with one `┬` per caret column, a separator of
`│` connectors, and then one callout per label.  Labels are resolved from left
to right.  The turn line of a label bends at its caret and runs right past
every connector that is still pending, so that the message always stands to the
right of the connectors on the lines that follow.

With the caret at column `p`, and the rightmost pending caret at `h` (or `p`
when nothing is pending), a callout with child labels has its `┬` at `h + 3`
and its arrowhead at `h + 6`.  For `p = 0` and `h = 4`:

    ╰──────┬──▶ message
           │
           ├─────▶ first child
           │
           ╰─────▶ last child
-/

namespace CaretReport

/-- How far right of the last pending caret the arrowhead of a callout without
children stands. -/
def turnAllowance : Int := 2

/-- How far right of the last pending caret the hub of child labels stands. -/
def hubOffset : Int := 3

/-- The length of the rule between the hub and the arrowhead of its parent. -/
def hubRule : Int := 2

def glyphStyle (color : Option Rgb) : Option Style :=
  color.map fun color => .foreground (.rgb color)

/-- The caret columns of labels sorted by position, each with the colour of
its first label. -/
def connectors (labels : List PlacedLabel) : List (Int × Option Rgb) :=
  (labels.eraseDupsBy fun label other => label.position == other.position).map
    fun label => (label.position, label.caretColor)

/-- An underbar continued from a column.  The rule before a caret has the
colour of that caret, and the rule after the last caret has the last colour. -/
def underbarFrom (width : Int) (line : Line) (previous : Int)
    (color : Option Rgb) : List (Int × Option Rgb) → Line
  | [] => line.rule (width - previous) (glyphStyle color)
  | (position, next) :: rest =>
      let ruled := line.rule (position - previous - 1) (glyphStyle next)
      let marked := ruled.glyph .down (glyphStyle next)
      underbarFrom width marked position next rest

/-- The rule under the segment, with a `┬` at every caret. -/
def underbar (first last : Int) (labels : List PlacedLabel) : Line :=
  underbarFrom (last - first) (Line.empty.space first) (-1) none
    (connectors labels)

/-- A line with a `│` at every caret column. -/
def separator (first : Int) (labels : List PlacedLabel) : Line :=
  (connectors labels).foldl
    (fun line (position, color) =>
      (line.padTo (first + position)).glyph .vertical (glyphStyle color))
    Line.empty

/-- A row of the drawing: its glyphs, and the line of text that they introduce,
if there is one. -/
structure Row where
  art : Line
  text : Option Line := none
deriving DecidableEq, Repr

def Row.line (row : Row) : Line :=
  match row.text with
  | none => row.art
  | some text => row.art.extend text

/-- A label that is being resolved, with the labels still pending after it. -/
structure Turn where
  first : Int
  label : PlacedLabel
  pending : List PlacedLabel

namespace Turn

/-- The column of the rightmost caret of the label and the pending labels. -/
def hub (turn : Turn) : Int :=
  (turn.pending.map PlacedLabel.position).foldl max turn.label.position

def style (turn : Turn) : Option Style :=
  glyphStyle turn.label.caretColor

def sharesPosition (turn : Turn) : Bool :=
  turn.pending.any fun other => other.position == turn.label.position

def pendingLine (turn : Turn) : Line :=
  separator turn.first turn.pending

/-- The corner of the turn line, followed by a run of rule. -/
def head (turn : Turn) (width : Int) : Line :=
  let corner := if turn.sharesPosition then Glyph.rightTee else Glyph.upCorner
  let start := Line.empty.space (turn.first + turn.label.position)
  (start.glyph corner turn.style).rule width turn.style

def plainFirst (layout : Layout) (turn : Turn) : Row :=
  let ruled := turn.head (turn.hub + 1 - turn.label.position)
  let pointed := ruled.glyph .arrow turn.style
  ⟨pointed.space layout.arrowPadding, turn.label.message.first⟩

/-- A further row of a callout without children: a `│` stands under the
arrowhead, and the text one column further right than on the turn row. -/
def plainNext (layout : Layout) (turn : Turn) (text : Line) : Row :=
  let column := turn.first + turn.hub + turnAllowance
  let marked := (turn.pendingLine.padTo column).glyph .vertical turn.style
  ⟨marked.space (layout.arrowPadding + 1), text⟩

def plainRows (layout : Layout) (turn : Turn) : List Row :=
  turn.plainFirst layout ::
    turn.label.message.rest.map (turn.plainNext layout)

/-- The connectors of the pending labels and a `│` under the hub. -/
def hubLine (turn : Turn) : Line :=
  let column := turn.first + turn.hub + hubOffset
  (turn.pendingLine.padTo column).glyph .vertical turn.style

def messageMark (message : Message) : Glyph :=
  if message.isSingle then .arrow else .leftTee

def parentFirst (layout : Layout) (turn : Turn) : Row :=
  let message := turn.label.message
  let ruled := turn.head (turn.hub + turnAllowance - turn.label.position)
  let hubbed := (ruled.glyph .down turn.style).rule hubRule turn.style
  let pointed := hubbed.glyph (messageMark message) turn.style
  ⟨pointed.space layout.arrowPadding, message.first⟩

def parentNext (layout : Layout) (turn : Turn) (text : Line) : Row :=
  let marked := (turn.hubLine.space hubRule).glyph .vertical turn.style
  ⟨marked.space (layout.arrowPadding + 1), text⟩

def parentRows (layout : Layout) (turn : Turn) : List Row :=
  turn.parentFirst layout ::
    turn.label.message.rest.map (turn.parentNext layout)

/-- The style of a child's glyphs: its own colour, or else its parent's. -/
def childStyle (turn : Turn) (child : PlacedChild) : Option Style :=
  glyphStyle (child.caretColor.or turn.label.caretColor)

/-- The connectors of the pending labels, filled up to the hub column. -/
def childStart (turn : Turn) : Line :=
  turn.pendingLine.padTo (turn.first + turn.hub + hubOffset)

/-- The first row of a child; `╰` closes the block of children. -/
def childFirst (layout : Layout) (turn : Turn) (child : PlacedChild)
    (isLast : Bool) : Row :=
  let corner := if isLast then Glyph.upCorner else Glyph.rightTee
  let opened := turn.childStart.glyph corner turn.style
  let ruled := opened.rule (layout.childIndent + 2) (turn.childStyle child)
  let pointed :=
    ruled.glyph (messageMark child.message) (turn.childStyle child)
  ⟨pointed.space layout.arrowPadding, child.message.first⟩

/-- A further row of a child.  The hub column is blank under the last child. -/
def childNext (layout : Layout) (turn : Turn) (child : PlacedChild)
    (isLast : Bool) (text : Line) : Row :=
  let indented :=
    if isLast then
      turn.childStart.space (layout.childIndent + 3)
    else
      (turn.childStart.glyph .vertical turn.style).space (layout.childIndent + 2)
  let marked := indented.glyph .vertical (turn.childStyle child)
  ⟨marked.space (layout.arrowPadding + 1), text⟩

def childRows (layout : Layout) (turn : Turn) (child : PlacedChild)
    (isLast : Bool) : List Row :=
  turn.childFirst layout child isLast ::
    child.message.rest.map (turn.childNext layout child isLast)

/-- The rows of several children, each but the last followed by a row with the
hub alone. -/
def childrenRows (layout : Layout) (turn : Turn) : List PlacedChild → List Row
  | [] => []
  | [child] => turn.childRows layout child true
  | child :: next :: rest =>
      turn.childRows layout child false ++
        ⟨turn.hubLine, none⟩ :: turn.childrenRows layout (next :: rest)

def rows (layout : Layout) (turn : Turn) : List Row :=
  if turn.label.hasChildren then
    turn.parentRows layout ++
      ⟨turn.hubLine, none⟩ :: turn.childrenRows layout turn.label.children
  else
    turn.plainRows layout

end Turn

/-- The callouts of labels sorted by position, with a separator between one
callout and the next. -/
def callouts (layout : Layout) (first : Int) : List PlacedLabel → List Row
  | [] => []
  | [label] => Turn.rows layout ⟨first, label, []⟩
  | label :: next :: rest =>
      Turn.rows layout ⟨first, label, next :: rest⟩ ++
        ⟨separator first (next :: rest), none⟩ ::
          callouts layout first (next :: rest)

def resetLast : List Line → List Line
  | [] => []
  | [line] => [line.reset]
  | line :: next :: rest => line :: resetLast (next :: rest)

namespace Segment

def sortedLabels (segment : Segment) : List PlacedLabel :=
  segment.labels.mergeSort fun label other =>
    decide (label.position ≤ other.position)

def rows (layout : Layout) (segment : Segment) : List Row :=
  let labels := segment.sortedLabels
  ⟨underbar segment.first segment.last labels, none⟩ ::
    ⟨separator segment.first labels, none⟩ ::
      callouts layout segment.first labels

/-- Every line drawn for a segment; the last one ends in a reset. -/
def draw (layout : Layout) (segment : Segment) : List Line :=
  resetLast ((segment.rows layout).map Row.line)

end Segment

end CaretReport
