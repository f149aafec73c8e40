import CaretReport.Escape
import CaretReport.LetterCase

/-!
# Names of styles

A style can be named by a person: by a palette colour or an emphasis, or in one
of the ways in which the terminal library names colours.  Case, surrounding
blanks, and the choice between blank, hyphen and underscore do not matter in
palette and emphasis names.
-/

namespace CaretReport

/-- Why a name names no style. -/
inductive StyleNameError where
  | unknown (name : List Char)
  | number (cause : NumberError)
deriving DecidableEq

def StyleNameError.message : StyleNameError → String
  | .unknown name => "unknown style name: " ++ String.ofList (quoted name)
  | .number cause => cause.message

/-- How a terminal library reads the description of a 24-bit colour.  A text that
describes none is told apart from one that holds an unreadable number. -/
abbrev ColorReader := List Char → Except NumberError (Option Rgb)

namespace Style

def nameKey (name : List Char) : List Char :=
  (lowerCase (trimEnds name)).map fun character =>
    if character = '-' ∨ character = ' ' then '_' else character

def findNamed? {α : Type} (items : List α) (name : α → String)
    (capitals : List Char) : Option α :=
  items.find? fun item => upperCase (name item).toList = capitals

def afterOpening? (opening text : List Char) : Option (List Char) :=
  if opening.isPrefixOf text then some (text.drop opening.length) else none

def brightMark : List Char := "bright_".toList

def ofKey? (key : List Char) : Option Style :=
  let rest := afterOpening? brightMark key
  match findNamed? Hue.all Hue.name (upperCase (rest.getD key)) with
  | some hue => some (.foreground (.palette ⟨hue, rest.isSome⟩))
  | none =>
      (findNamed? Emphasis.all Emphasis.name (upperCase key)).map .emphasis

/-- The style of a name: a palette colour or an emphasis, or else the colour that
a reader of colours makes of the name. -/
def ofName? (readColor : ColorReader) (name : List Char) :
    Except StyleNameError Style :=
  match ofKey? (nameKey name) with
  | some style => .ok style
  | none =>
      match readColor (trimEnds name) with
      | .ok (some color) => .ok (.foreground (.rgb color))
      | .ok none => .error (.unknown name)
      | .error cause => .error (.number cause)

end Style

end CaretReport
