import CaretReport.Drawing
import CaretReport.Paint

/-!
# Reports

A report echoes the text once per segment, with the drawing of that segment
beneath it and a blank line after it.
-/

namespace CaretReport

/-- A finished report. -/
structure Report where
  text : List Char
  segments : List Segment
  showRangeSuffix : Bool := false
  colorizeEchoedInput : Bool := false
  layout : Layout := {}
deriving DecidableEq

namespace Report

def highlightsOf (segment : Segment) : List Highlight :=
  segment.highlights.map fun (span, color) =>
    ⟨Progression.between span.first (span.last + 1), some color⟩

def rangeSuffix (segment : Segment) : List Char :=
  ' ' :: '[' :: segment.toSpan.describe ++ [']']

def echo (report : Report) (segment : Segment) : List Char :=
  let text :=
    if report.colorizeEchoedInput then
      paintText report.text (highlightsOf segment)
    else
      report.text
  if report.showRangeSuffix then text ++ rangeSuffix segment else text

def linesOf (report : Report) (segment : Segment) : List Line :=
  segment.draw report.layout

def endLine (text : List Char) : List Char :=
  text ++ ['\n']

/-- The whole output for a segment: the echoed text, the drawn lines, and a
blank line. -/
def block (report : Report) (segment : Segment) : List Char :=
  endLine (report.echo segment) ++
    (report.linesOf segment).flatMap (fun line => endLine line.render) ++
      ['\n']

def blocks (report : Report) : List (List Char) :=
  report.segments.map report.block

def render (report : Report) : List Char :=
  report.blocks.flatten

end Report

end CaretReport
