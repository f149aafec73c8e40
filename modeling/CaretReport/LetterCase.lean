/-!
# Letter case of names

Names are compared without regard to case.  Only the case mappings that meet
the ASCII letters matter here, because every known name is spelled with them:
the Kelvin sign has the small letter `k`, and the dotless i, the long s and
some ligatures have ASCII capitals.  All other characters are left alone, and
a text that holds one equals no name in either case.
-/

namespace CaretReport

def lowerChar (character : Char) : Char :=
  if character = '\u212a' then 'k' else character.toLower

/-- The capitals of a character: a ligature has several. -/
def upperChars (character : Char) : List Char :=
  match character.toNat with
  | 0xdf => ['S', 'S']
  | 0x131 => ['I']
  | 0x17f => ['S']
  | 0xfb00 => ['F', 'F']
  | 0xfb01 => ['F', 'I']
  | 0xfb02 => ['F', 'L']
  | 0xfb03 => ['F', 'F', 'I']
  | 0xfb04 => ['F', 'F', 'L']
  | 0xfb05 => ['S', 'T']
  | 0xfb06 => ['S', 'T']
  | _ => [character.toUpper]

def lowerCase (text : List Char) : List Char :=
  text.map lowerChar

def upperCase (text : List Char) : List Char :=
  text.flatMap upperChars

end CaretReport
