import CaretReport.Capacity
import CaretReport.OutputToken
import CaretReport.Pen

/-!
# Text on a terminal

Output with escape sequences is decoded into lines of pieces.  A piece is a
maximal run of text between two escape sequences within one line, together
with the pen that it is written with.  The pen carries over from one line to
the next.
-/

namespace CaretReport

/-- A run of text written with one pen. -/
structure Piece where
  pen : Pen
  text : List Char
deriving DecidableEq, Repr

/-- The code that a parameter of a style sequence gives: an empty one is zero,
and numbers above 255 count as 255. -/
def codeOfDigits (digits : List Char) : Except NumberError Nat :=
  if integerDigitLimit < digits.length then
    .error (.tooManyDigits digits.length)
  else
    .ok (min 255 (Nat.ofDigitChars 10 digits 0))

/-- The codes that the parameters of a style sequence give.  Parameters that
are no numbers are left out. -/
def styleCodes (parameters : List Char) : Except NumberError (List Nat) :=
  ((splitAtChar ';' parameters).filter fun part =>
    part.all Char.isDigit).mapM codeOfDigits

/-- The pieces of the parts of a line, and the pen after them. -/
def piecesOf : Pen → List OutputToken → Except NumberError (List Piece × Pen)
  | pen, [] => .ok ([], pen)
  | pen, .run text :: rest => do
      let (pieces, last) ← piecesOf pen rest
      return (⟨pen, text⟩ :: pieces, last)
  | pen, .style parameters :: rest => do
      let codes ← styleCodes parameters
      piecesOf (pen.applyAll (PenChange.ofCodes codes)) rest
  | pen, .link target :: rest => piecesOf (pen.withLink target) rest
  | pen, _ :: rest => piecesOf pen rest

/-- Whether a control character is dropped from displayed text: bell,
backspace, vertical tab, form feed and carriage return. -/
def isDroppedControl (character : Char) : Bool :=
  [7, 8, 11, 12, 13].contains character.toNat

def Piece.displayed (piece : Piece) : Piece :=
  { piece with
    text := piece.text.filter fun character => !isDroppedControl character }

/-- The part of a line that is not overwritten: what follows its last carriage
return. -/
def afterLastReturn (line : List Char) : List Char :=
  (splitAtChar '\r' line).getLastD []

/-- The pieces of lines of output, written from a given pen onwards. -/
def decodeLines : Pen → List (List Char) →
    Except NumberError (List (List Piece))
  | _, [] => .ok []
  | pen, line :: rest => do
      let (pieces, last) ← piecesOf pen (outputTokens (afterLastReturn line))
      let others ← decodeLines last rest
      return pieces.map Piece.displayed :: others

def decodeOutput (output : List Char) : Except NumberError (List (List Piece)) :=
  decodeLines Pen.default (splitAtChar '\n' output)

def lineText (line : List Piece) : List Char :=
  line.flatMap Piece.text

def plainText (lines : List (List Piece)) : List Char :=
  joinWithChar '\n' (lines.map lineText)

/-- A stretch of text written in a style, from `start` up to `stop`. -/
structure StyledRun where
  start : Nat
  stop : Nat
  pen : Pen
deriving DecidableEq, Repr

/-- The styled stretches of a line that starts at a given index. -/
def lineRuns (start : Nat) : List Piece → List StyledRun
  | [] => []
  | piece :: rest =>
      let stop := start + piece.text.length
      let others := lineRuns stop rest
      if piece.pen.isActive then ⟨start, stop, piece.pen⟩ :: others else others

/-- The styled stretches of lines of which the first starts at a given
index. -/
def styledRuns (start : Nat) : List (List Piece) → List StyledRun
  | [] => []
  | line :: rest =>
      lineRuns start line ++ styledRuns (start + (lineText line).length + 1) rest

def dropTrailingBreaks (text : List Char) : List Char :=
  (text.reverse.dropWhile (· == '\n')).reverse

namespace Report

/-- The block of a segment as terminal text, without the blank line after
it. -/
def terminalBlock (report : Report) (segment : Segment) :
    Except OutputError (List (List Piece)) := do
  let block ← report.block? segment
  (decodeOutput (dropTrailingBreaks block)).mapError .number

def terminalBlocks (report : Report) :
    Except OutputError (List (List (List Piece))) :=
  report.segments.mapM report.terminalBlock

end Report

end CaretReport
