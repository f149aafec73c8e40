import CaretReport.Config
import CaretReport.Search
import CaretReport.Span

/-!
# Excerpts of the reference text

A long text is cut down to the window that its labels cover, with some context
on either side and an ellipsis wherever something was cut away.  Spans over the
full text are moved onto the excerpt by `Excerpt.rebase`.
-/

namespace CaretReport

def leadingEllipsis : List Char := ['.', '.', '.', ' ']

def trailingEllipsis : List Char := [' ', '.', '.', '.']

def wordSeparator : List Char := [' ']

/-- A text cut down to a window, with its ellipsis marks. -/
structure Excerpt where
  text : List Char
  windowStart : Int
  windowEnd : Int
  lead : List Char
  trail : List Char
deriving DecidableEq, Repr

/-- The characters of a text from `start` up to `stop`. -/
def slice (text : List Char) (start stop : Int) : List Char :=
  (text.take stop.toNat).drop start.toNat

def charWindow (length : Nat) (padding : TrimPadding) (first last : Int) :
    Int × Int :=
  (satSub first padding.before, min (satAdd last (padding.after + 1)) length)

/-- The start of a window that keeps a number of words before the labels: just
past the space one further to the left. -/
def wordWindowStart (text : List Char) (before : Nat) (first : Int) : Int :=
  let stop := searchEnd text.length (some first)
  let spaces := occurrencesBackward wordSeparator text (by decide) 0 stop
  match spaces[before]? with
  | none => 0
  | some index => index + 1

/-- The end of a window that keeps a number of words after the labels: the
space one further to the right, but never inside the labels. -/
def wordWindowEnd (text : List Char) (after : Nat) (last : Int) : Int :=
  let spaces := occurrences wordSeparator text last.toNat text.length
  match spaces[after]? with
  | none => text.length
  | some index => max (index : Int) (last + 1)

/-- The window around the labels from `first` to `last`. -/
def trimWindow (text : List Char) (mode : TrimMode) (padding : TrimPadding)
    (first last : Int) : Int × Int :=
  match mode with
  | .chars => charWindow text.length padding first last
  | .words =>
      (wordWindowStart text padding.before first,
        wordWindowEnd text padding.after last)

namespace Excerpt

def untrimmed (text : List Char) : Excerpt :=
  ⟨text, 0, text.length, [], []⟩

def ofWindow (text : List Char) (start stop : Int) : Excerpt :=
  let lead := if 0 < start then leadingEllipsis else []
  let trail := if stop < text.length then trailingEllipsis else []
  ⟨lead ++ slice text start stop ++ trail, start, stop, lead, trail⟩

/-- The excerpt of a text around its labels.  An empty text, or one without
labels, is left whole. -/
def ofSpans (text : List Char) (spans : List Span) (mode : TrimMode)
    (padding : TrimPadding) : Excerpt :=
  match (spans.map Span.first).min?, (spans.map Span.last).max? with
  | some first, some last =>
      if text = [] then
        untrimmed text
      else
        let window := trimWindow text mode padding first last
        ofWindow text window.1 window.2
  | _, _ => untrimmed text

def isTrimmed (excerpt : Excerpt) : Bool :=
  !excerpt.lead.isEmpty || !excerpt.trail.isEmpty

/-- The column of the excerpt that shows a position of the full text. -/
def column (excerpt : Excerpt) (position : Int) : Int :=
  satAdd (satSub position excerpt.windowStart) excerpt.lead.length

def rebase (excerpt : Excerpt) (span : Span) : Span where
  first := excerpt.column span.first
  last := excerpt.column span.last
  ordered := satAdd_le_satAdd (satSub_le_satSub span.ordered _) _

end Excerpt

end CaretReport
