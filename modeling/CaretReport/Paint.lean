import CaretReport.Escape
import CaretReport.Progression

/-!
# Painted text

Stretches of a text are painted in colours.  Where highlights overlap the last
one wins, so that a later highlight without colour lays earlier paint bare, and
neighbouring characters of one colour share a single pair of escape sequences.
-/

namespace CaretReport

/-- A stretch of positions and the colour to paint it in, or none to leave it
bare. -/
structure Highlight where
  positions : Progression
  color : Option Rgb
deriving DecidableEq

/-- The colour of a position: that of the last highlight that contains it, also
when that highlight has none. -/
def colorAt (highlights : List Highlight) (position : Int) : Option Rgb :=
  (highlights.reverse.find? fun highlight =>
    highlight.positions.contains position).bind Highlight.color

def paintChars (highlights : List Highlight) (text : List Char) :
    List (Option Rgb × Char) :=
  text.zipIdx.map fun (character, index) =>
    (colorAt highlights (index : Int), character)

def colorRuns : List (Option Rgb × Char) → List (Option Rgb × List Char)
  | [] => []
  | (color, character) :: rest =>
      match colorRuns rest with
      | [] => [(color, [character])]
      | (next, run) :: runs =>
          if color = next then
            (next, character :: run) :: runs
          else
            (color, [character]) :: (next, run) :: runs

/-- A run between its escape sequences; a run without colour stays bare. -/
def renderRun : Option Rgb × List Char → List Char
  | (none, run) => run
  | (some color, run) =>
      (Style.foreground (.rgb color)).escape ++ run ++ resetSequence

def paintText (text : List Char) (highlights : List Highlight) : List Char :=
  (colorRuns (paintChars highlights text)).flatMap renderRun

end CaretReport
