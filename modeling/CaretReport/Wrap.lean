import CaretReport.Blank
import CaretReport.IntegerText
import CaretReport.Separated

/-!
# Word wrapping

A message is split into lines of bounded width.  Line breaks of the message
always split.  A longer line breaks at the last blank at or before the first
column that does not fit; a word without such a blank is split one column
early and hyphenated.
-/

namespace CaretReport

def hyphen : Char := '-'

/-- Why a width admits no wrapping. -/
inductive WrapError where
  | nonpositive (width : Int)
deriving DecidableEq, Repr

def WrapError.message : WrapError → String
  | .nonpositive width =>
      wordedWith [width] s!"wrap width must be positive, got {width}"

def dropReturns (text : List Char) : List Char :=
  text.filter fun character => character != '\r'

/-- Where a word too long for the width is split: one column early, to leave
room for the hyphen, but never before its first character. -/
def splitColumn (width : Nat) : Nat :=
  max (width - 1) 1

/-- The lines of one paragraph.  Lines may come out empty. -/
def wrapParagraph (width : Nat) (line : List Char) : List (List Char) :=
  if _long : width < line.length then
    match _found : lastBlank? (line.take (width + 1)) with
    | some 0 => wrapParagraph width (trimStart line)
    | some (before + 1) =>
        trimEnd (line.take (before + 1)) ::
          wrapParagraph width (trimStart (line.drop (before + 1)))
    | none =>
        (line.take (splitColumn width) ++ [hyphen]) ::
          wrapParagraph width (line.drop (splitColumn width))
  else
    [trimEnd line]
termination_by line.length
decreasing_by
  · exact trimStart_length_lt (by assumption)
  · have shorter := trimStart_length_le (line.drop (before + 1))
    rw [List.length_drop] at shorter
    omega
  · rw [List.length_drop, splitColumn]
    omega

/-- The lines of a message for a given width.  Empty lines are left out, but a
message without any other line has one empty line. -/
def wrapLines (width : Nat) (text : List Char) : List (List Char) :=
  let lines := (splitAtChar '\n' (dropReturns text)).flatMap (wrapParagraph width)
  let kept := lines.filter fun line => !line.isEmpty
  if kept = [] then [[]] else kept

/-- The lines of a message for a given width, if the width is positive. -/
def wrapText? (text : List Char) (width : Int) :
    Except WrapError (List (List Char)) :=
  if width < 1 then
    .error (.nonpositive width)
  else
    .ok (wrapLines width.toNat text)

theorem wrapLines_ne_nil (width : Nat) (text : List Char) :
    wrapLines width text ≠ [] := by
  simp only [wrapLines]
  split
  · simp
  · assumption

end CaretReport
