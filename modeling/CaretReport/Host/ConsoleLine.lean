import CaretReport.Console
import CaretReport.Host.CellWidth

/-!
# Lines as the host writes them

The way in which consoles write lines when the program runs; no theorem rests on
it.  Tabs are replaced by blanks up to the next tab stop, and a console in
colour puts escape sequences around every piece that has a style.
-/

namespace CaretReport

def tabWidth : Nat := 8

def cutAfterTabs : List Char → List (List Char)
  | [] => []
  | character :: rest =>
      if character = '\t' then
        [character] :: cutAfterTabs rest
      else
        match cutAfterTabs rest with
        | [] => [[character]]
        | part :: parts => (character :: part) :: parts

def Piece.cut (piece : Piece) : List Piece :=
  (cutAfterTabs piece.text).map (Piece.mk piece.pen)

/-- The blanks that stand for a tab after some text: one, which a joiner at the
end of the text hides, and those up to the next tab stop. -/
def tabBlanks (before : List Char) : List Char :=
  let column := cellWidth (before ++ [' '])
  List.replicate (1 + (tabWidth - column % tabWidth) % tabWidth) ' '

/-- Pieces in which a tab only stands last, with their tabs replaced by blanks;
`before` is the text since the last tab stop. -/
def expandPieces (before : List Char) : List Piece → List Piece
  | [] => []
  | piece :: rest =>
      if piece.text.getLast? = some '\t' then
        let body := piece.text.dropLast
        { piece with text := body ++ tabBlanks (before ++ body) } ::
          expandPieces [] rest
      else
        piece :: expandPieces (before ++ piece.text) rest

def expandLine (line : List Piece) : List Piece :=
  expandPieces [] (line.flatMap Piece.cut)

/-- A piece as a console in colour writes it.  A pen without codes leaves the
text bare. -/
def renderPiece (piece : Piece) : List Char :=
  if piece.pen.codes ≠ [] ∧ piece.text ≠ [] then
    escapeSequence piece.pen.codes ++ piece.text ++ resetSequence
  else
    piece.text

def printLine (styles : Bool) (line : List Piece) : List Char :=
  let pieces := expandLine line
  if styles then pieces.flatMap renderPiece else lineText pieces

end CaretReport
