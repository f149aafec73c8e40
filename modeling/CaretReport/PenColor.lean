import CaretReport.Decimal
import CaretReport.Quoted
import CaretReport.Style

/-!
# Colours of a pen

A terminal writes in its own colour, in one of 256 indexed colours, or in a
24-bit colour.  The codes of a foreground and of a background colour differ
only in the base that they are counted from.
-/

namespace CaretReport

/-- A colour that a terminal can be told to use. -/
inductive PenColor where
  | standard
  | indexed (index : Nat)
  | rgb (color : Rgb)
deriving DecidableEq, Repr

namespace PenColor

def foregroundBase : Nat := 30

def backgroundBase : Nat := 40

/-- The colour with a code of its own, which is counted from the base: eight
indexed colours, the colour of the terminal, and eight bright colours. -/
def ofOffset? (offset : Nat) : Option PenColor :=
  if offset < 8 then
    some (.indexed offset)
  else if offset = 9 then
    some .standard
  else if 60 ≤ offset ∧ offset < 68 then
    some (.indexed (offset - 52))
  else
    none

def ofCode? (base code : Nat) : Option PenColor :=
  if base ≤ code then ofOffset? (code - base) else none

def codes (base : Nat) : PenColor → List Nat
  | .standard => [base + 9]
  | .indexed index =>
      if index < 8 then
        [base + index]
      else if index < 16 then
        [base + 52 + index]
      else
        [base + 8, 5, index]
  | .rgb color => [base + 8, 2, color.red, color.green, color.blue]

def channelHex (value : Fin 256) : List Char :=
  hexDigits 2 value.val

def name : PenColor → List Char
  | .standard => "default".toList
  | .indexed index => "color(".toList ++ natDecimal index ++ [')']
  | .rgb color =>
      '#' :: channelHex color.red ++ channelHex color.green ++
        channelHex color.blue

end PenColor

end CaretReport
