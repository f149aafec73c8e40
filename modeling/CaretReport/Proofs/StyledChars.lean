import CaretReport.Drawing
import CaretReport.Proofs.LineText

/-!
# Characters in their styles

The visible text of a line says nothing about its colours.  This file reads a line
as the characters that it shows, each with the styles around it.  Pushing respects
this view, so a line that is drawn with blanks, rules and glyphs shows them one
behind the other, each in the colour that it was drawn in.
-/

namespace CaretReport

/-- A visible character and the styles around it, of which the innermost is listed
last. -/
structure StyledChar where
  character : Char
  styles : List Style
deriving DecidableEq, Repr

def StyledChar.blank : StyledChar := ⟨' ', []⟩

/-- The glyph in a colour; without one it stands in no style at all. -/
def Glyph.colored (shape : Glyph) : Option Rgb → StyledChar
  | none => ⟨shape.char, []⟩
  | some color => ⟨shape.char, [.foreground (.rgb color)]⟩

theorem Glyph.character_colored (shape : Glyph) (color : Option Rgb) :
    (shape.colored color).character = shape.char := by
  cases color <;> rfl

def blanks (width : Int) : List StyledChar :=
  List.replicate width.toNat .blank

def ruled (width : Int) (color : Option Rgb) : List StyledChar :=
  List.replicate width.toNat (Glyph.rule.colored color)

@[simp]
theorem length_blanks (width : Int) : (blanks width).length = width.toNat :=
  List.length_replicate

@[simp]
theorem length_ruled (width : Int) (color : Option Rgb) :
    (ruled width color).length = width.toNat :=
  List.length_replicate

theorem getElem?_ruled {width : Int} {index : Nat} (inside : index < width.toNat)
    (color : Option Rgb) :
    (ruled width color)[index]? = some (Glyph.rule.colored color) := by
  rw [ruled, List.getElem?_replicate, if_pos inside]

theorem eq_blank_of_getElem?_blanks {width : Int} {index : Nat} {char : StyledChar}
    (found : (blanks width)[index]? = some char) : char = .blank :=
  List.eq_of_mem_replicate (List.mem_of_getElem? found)

namespace Token

/-- The styles around the text of a token, of which the innermost is listed
last. -/
def enclosing : Token → List Style
  | .styled styles inner => styles ++ inner.enclosing
  | _ => []

def chars (token : Token) : List StyledChar :=
  token.plain.map fun character => ⟨character, token.enclosing⟩

theorem additive_chars : Additive chars where
  nothing token void := by
    rw [chars, plain_of_isVoid void, List.map_nil]
  joined left right joined join left_solid right_solid := by
    have plain_eq := plain_of_join? join left_solid right_solid
    have bare : left.enclosing = [] ∧ right.enclosing = [] ∧
        joined.enclosing = [] := by
      obtain ⟨_, _, rfl, rfl, rfl⟩ | ⟨_, _, rfl, rfl, rfl⟩ |
        ⟨_, _, rfl, rfl, rfl⟩ | ⟨rfl, rfl, rfl⟩ := cases_of_join? join
      all_goals exact ⟨rfl, rfl, rfl⟩
    rw [chars, chars, chars, plain_eq, bare.1, bare.2.1, bare.2.2,
      List.map_append]

theorem chars_inStyle_glyph (shape : Glyph) (color : Option Rgb) :
    (Line.inStyle (glyphStyle color) (.glyph shape)).chars =
      [shape.colored color] := by
  cases color <;> rfl

theorem chars_inStyle_rule (width : Int) (color : Option Rgb) :
    (Line.inStyle (glyphStyle color) (.rule width)).chars = ruled width color := by
  have same : (Line.inStyle (glyphStyle color) (.rule width)).chars =
      (List.replicate width.toNat Glyph.rule.char).map fun character =>
        ⟨character, (Glyph.rule.colored color).styles⟩ := by
    cases color <;> rfl
  rw [same, List.map_replicate]
  cases color <;> rfl

end Token

namespace Line

def chars (line : Line) : List StyledChar :=
  line.tokens.flatMap Token.chars

/-- The line shows the characters in their styles, and its width is their
number. -/
structure Draws (line : Line) (chars : List StyledChar) : Prop where
  shows : line.Shows (chars.map StyledChar.character)
  chars_eq : line.chars = chars

theorem draws_empty : empty.Draws [] :=
  ⟨shows_empty, rfl⟩

variable {line : Line}

theorem chars_push (solid : line.Solid) (token : Token) :
    (line.push token).chars = line.chars ++ token.chars :=
  flatMap_push Token.additive_chars solid token

theorem chars_reset (solid : line.Solid) : line.reset.chars = line.chars := by
  rw [reset, chars_push solid]
  exact List.append_nil line.chars

namespace Draws

variable {shown : List StyledChar}

theorem space (draws : line.Draws shown) (width : Int) :
    (line.space width).Draws (shown ++ blanks width) where
  shows := by
    rw [blanks, List.map_append, List.map_replicate]
    exact draws.shows.space width
  chars_eq := by
    rw [Line.space, chars_push draws.shows.solid, draws.chars_eq, Token.chars,
      Token.plain, List.map_replicate]
    rfl

theorem padTo (draws : line.Draws shown) (column : Int) :
    (line.padTo column).Draws (shown ++ blanks (column - shown.length)) := by
  have width_eq : line.width = shown.length := by
    rw [draws.shows.width_eq, List.length_map]
  rw [Line.padTo, width_eq]
  exact draws.space _

theorem rule (draws : line.Draws shown) (width : Int) (color : Option Rgb) :
    (line.rule width (glyphStyle color)).Draws (shown ++ ruled width color) where
  shows := by
    rw [ruled, List.map_append, List.map_replicate, Glyph.character_colored]
    exact draws.shows.rule width (glyphStyle color)
  chars_eq := by
    unfold Line.rule
    split
    · have nothing : width.toNat = 0 := by omega
      rw [ruled, nothing, List.replicate_zero, List.append_nil, draws.chars_eq]
    · rw [chars_push draws.shows.solid, draws.chars_eq, Token.chars_inStyle_rule]

theorem glyph (draws : line.Draws shown) (shape : Glyph) (color : Option Rgb) :
    (line.glyph shape (glyphStyle color)).Draws (shown ++ [shape.colored color]) where
  shows := by
    rw [List.map_append, List.map_singleton, Glyph.character_colored]
    exact draws.shows.glyph shape (glyphStyle color)
  chars_eq := by
    rw [Line.glyph, chars_push draws.shows.solid, draws.chars_eq,
      Token.chars_inStyle_glyph]

/-- A line that is extended shows its characters followed by those of the other. -/
theorem chars_extend (draws : line.Draws shown) (other : Line) :
    (line.extend other).chars = shown ++ other.chars := by
  have both := flatMap_pushAll Token.additive_chars draws.shows.solid other.tokens
  rw [← draws.chars_eq]
  exact both.2

end Draws

end Line

end CaretReport
