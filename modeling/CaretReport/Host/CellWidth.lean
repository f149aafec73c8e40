import CaretReport.Host.WideCharacter
import CaretReport.Host.ZeroWidth

/-!
# Cell widths

The widths by which the host of the program finds its tab stops; no theorem rests
on them.  A terminal shows text in cells of one size.  Most characters take up
one cell, wide ones two, and controls and combining characters none.  Two marks
act on their neighbours: a joiner hides the character after it, and an emoji mark
may widen the character before it.
-/

namespace CaretReport

def isControl (character : Char) : Bool :=
  let code := character.toNat
  decide (1 ≤ code ∧ code ≤ 31 ∨ 0x7f ≤ code ∧ code ≤ 0x9f)

def charWidth (character : Char) : Nat :=
  if isControl character || isZeroWidth character then
    0
  else if isWide character then
    2
  else
    1

/-- The mark that joins the character after it to the one before it. -/
def joinerMark : Char := '\u200d'

/-- The mark that asks for emoji style of the character before it. -/
def emojiMark : Char := '\ufe0f'

/-- The number of cells of a text with marks; `last` is the last character
before it that took up cells and was not marked since. -/
def markedWidth (last : Option Char) : List Char → Nat
  | [] => 0
  | character :: rest =>
      if character = joinerMark then
        match rest with
        | [] => 0
        | _ :: others => markedWidth last others
      else if character = emojiMark then
        (last.any widensAsEmoji).toNat + markedWidth none rest
      else
        let width := charWidth character
        width + markedWidth (if width = 0 then last else some character) rest

def cellWidth (text : List Char) : Nat :=
  markedWidth none text

end CaretReport
