import CaretReport.Token

/-!
# Report lines

A line is built by pushing tokens onto its end.  A token that shows nothing is
left out, and a token that can be joined to the last one is, so that two pushes
render like one larger token.
-/

namespace CaretReport

/-- One visual line of a report. -/
structure Line where
  tokens : List Token
deriving DecidableEq, Repr

/-- Why a text makes no line. -/
inductive LineError where
  | lineBreak
deriving DecidableEq, Repr

def LineError.message : LineError → String
  | .lineBreak => "styled lines cannot contain line breaks"

/-- Tokens with one more at the end, joined to the last one if possible. -/
def pushToken : List Token → Token → List Token
  | [], token => [token]
  | [last], token =>
      match last.join? token with
      | some joined => [joined]
      | none => [last, token]
  | first :: second :: rest, token => first :: pushToken (second :: rest) token

namespace Line

def empty : Line := ⟨[]⟩

def push (line : Line) (token : Token) : Line :=
  if token.isVoid then line else ⟨pushToken line.tokens token⟩

def pushAll (line : Line) (tokens : List Token) : Line :=
  tokens.foldl push line

def ofTokens (tokens : List Token) : Line :=
  empty.pushAll tokens

/-- The line that holds a text; a text with a line break makes none. -/
def ofText? (text : List Char) : Except LineError Line :=
  if '\n' ∈ text then
    .error .lineBreak
  else
    .ok (ofTokens [.text text])

def width (line : Line) : Int :=
  line.tokens.foldr (fun token rest => token.width + rest) 0

def plain (line : Line) : List Char :=
  line.tokens.flatMap Token.plain

def render (line : Line) : List Char :=
  line.tokens.flatMap Token.render

def space (line : Line) (width : Int) : Line :=
  line.push (.space width)

def padTo (line : Line) (column : Int) : Line :=
  line.space (column - line.width)

def inStyle (style : Option Style) (token : Token) : Token :=
  match style with
  | none => token
  | some style => .styled [style] token

def rule (line : Line) (width : Int) (style : Option Style) : Line :=
  if width ≤ 0 then line else line.push (inStyle style (.rule width))

def glyph (line : Line) (shape : Glyph) (style : Option Style) : Line :=
  line.push (inStyle style (.glyph shape))

def text (line : Line) (content : List Char) : Line :=
  line.push (.text content)

def reset (line : Line) : Line :=
  line.push .reset

def extend (line other : Line) : Line :=
  line.pushAll other.tokens

/-- The line with one more style nested inside those around its text. -/
def withStyle (line : Line) (style : Style) : Line :=
  ofTokens (line.tokens.map (Token.withStyle style))

def shown (line : Line) : List Char :=
  "StyledLine(".toList ++ quoted line.render ++ [')']

end Line

end CaretReport
