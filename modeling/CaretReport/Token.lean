import CaretReport.Escape
import CaretReport.StyleStack

/-!
# Tokens of a report line

A report line is a sequence of tokens: runs of blank columns and of rule,
single box glyphs, message text, resets, and tokens wrapped in styles.  A token
has three views: the characters it renders to, its visible text, and the
number of columns it covers.
-/

namespace CaretReport

/-- The box-drawing glyphs of a caret report. -/
inductive Glyph where
  | vertical
  | rule
  | down
  | upCorner
  | rightTee
  | leftTee
  | arrow
deriving DecidableEq, Repr

namespace Glyph

def all : List Glyph :=
  [vertical, rule, down, upCorner, rightTee, leftTee, arrow]

def char : Glyph → Char
  | vertical => '│'
  | rule => '─'
  | down => '┬'
  | upCorner => '╰'
  | rightTee => '├'
  | leftTee => '┤'
  | arrow => '▶'

end Glyph

/-- A token of a report line.  The widths of runs may be zero or negative;
such runs show nothing. -/
inductive Token where
  | space (width : Int)
  | rule (width : Int)
  | glyph (shape : Glyph)
  | text (content : List Char)
  | reset
  | styled (styles : List Style) (inner : Token)
deriving DecidableEq, Repr

namespace Token

def plain : Token → List Char
  | .space width => List.replicate width.toNat ' '
  | .rule width => List.replicate width.toNat Glyph.rule.char
  | .glyph shape => [shape.char]
  | .text content => content
  | .reset => []
  | .styled _ inner => inner.plain

/-- A text between the escape sequences of a stack of styles and a reset; an
empty stack adds nothing. -/
def wrapStyles (stack : List Style) (text : List Char) : List Char :=
  if stack = [] then
    text
  else
    stack.flatMap Style.escape ++ text ++ resetSequence

def render : Token → List Char
  | .reset => resetSequence
  | .styled styles inner => wrapStyles (coalesceStyles styles) inner.render
  | token => token.plain

def width : Token → Int
  | .space width => width
  | .rule width => width
  | .glyph _ => 1
  | .text content => content.length
  | .reset => 0
  | .styled _ inner => inner.width

/-- Whether a token shows nothing and is left out of a line. -/
def isVoid : Token → Bool
  | .space width => decide (width ≤ 0)
  | .rule width => decide (width ≤ 0)
  | .text content => content.isEmpty
  | _ => false

/-- Two neighbouring tokens as one, if they can be joined.  Styled tokens
never join, because each closes with its own reset. -/
def join? : Token → Token → Option Token
  | .space left, .space right => some (.space (left + right))
  | .rule left, .rule right => some (.rule (left + right))
  | .text left, .text right => some (.text (left ++ right))
  | .reset, .reset => some .reset
  | _, _ => none

/-- The token with one more style nested inside those around its text.  Runs,
glyphs and resets that stand bare take no style. -/
def withStyle (style : Style) : Token → Token
  | .text content => .styled [style] (.text content)
  | .styled styles inner => .styled (styles ++ [style]) inner
  | token => token

end Token

end CaretReport
