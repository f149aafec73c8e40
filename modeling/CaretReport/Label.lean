import CaretReport.Span
import CaretReport.Style

/-!
# Labels

What a caller attaches to the text: a message for a span, with styles, an
optional caret colour, and child labels shown beneath it.
-/

namespace CaretReport

/-- A secondary message shown beneath its parent label. -/
structure ChildLabel where
  message : List Char
  styles : List Style := []
  caretColor : Option Rgb := none
deriving DecidableEq, Repr

namespace ChildLabel

def withMessage (child : ChildLabel) (message : List Char) : ChildLabel :=
  { child with message := message }

def withStyle (child : ChildLabel) (style : Style) : ChildLabel :=
  { child with styles := child.styles ++ [style] }

def withCaretColor (child : ChildLabel) (color : Option Rgb) : ChildLabel :=
  { child with caretColor := color }

end ChildLabel

/-- A message for a span of the text. -/
structure Label where
  span : Span
  message : List Char
  children : List ChildLabel := []
  styles : List Style := []
  caretColor : Option Rgb := none
deriving DecidableEq

namespace Label

def withMessage (label : Label) (message : List Char) : Label :=
  { label with message := message }

def withStyle (label : Label) (style : Style) : Label :=
  { label with styles := label.styles ++ [style] }

def withChild (label : Label) (child : ChildLabel) : Label :=
  { label with children := label.children ++ [child] }

def withCaretColor (label : Label) (color : Option Rgb) : Label :=
  { label with caretColor := color }

end Label

end CaretReport
