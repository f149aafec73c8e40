/-!
# Blank characters

Wrapping and name reading agree on one class of blank characters.  The class
holds the separators of Unicode together with the ASCII controls that act as
separators; the zero-width characters U+200B, U+2060 and U+FEFF are not blank.
Around numbers the separator controls U+001C to U+001F are not blank either.
-/

namespace CaretReport

def isBlank (character : Char) : Bool :=
  let code := character.toNat
  decide (9 ≤ code ∧ code ≤ 13 ∨ 28 ≤ code ∧ code ≤ 32 ∨ code = 0x85 ∨
    code = 0xa0 ∨ code = 0x1680 ∨ 0x2000 ≤ code ∧ code ≤ 0x200a ∨
    code = 0x2028 ∨ code = 0x2029 ∨ code = 0x202f ∨ code = 0x205f ∨
    code = 0x3000)

def trimStart (text : List Char) : List Char :=
  text.dropWhile isBlank

def trimEnd : List Char → List Char
  | [] => []
  | character :: rest =>
      match trimEnd rest with
      | [] => if isBlank character then [] else [character]
      | kept => character :: kept

def trimEnds (text : List Char) : List Char :=
  trimEnd (trimStart text)

def lastBlank? : List Char → Option Nat
  | [] => none
  | character :: rest =>
      match lastBlank? rest with
      | some index => some (index + 1)
      | none => if isBlank character then some 0 else none

/-- Whether a character may stand around a written number: a blank other than
the four separator controls U+001C to U+001F. -/
def isNumberBlank (character : Char) : Bool :=
  isBlank character &&
    !decide (28 ≤ character.toNat ∧ character.toNat ≤ 31)

def trimNumber (text : List Char) : List Char :=
  ((text.dropWhile isNumberBlank).reverse.dropWhile isNumberBlank).reverse

theorem trimStart_length_le (text : List Char) :
    (trimStart text).length ≤ text.length :=
  (List.dropWhile_sublist isBlank).length_le

/-- Trimming the start shortens a text whose last blank is its first
character. -/
theorem trimStart_length_lt {text : List Char} {width : Nat}
    (found : lastBlank? (text.take (width + 1)) = some 0) :
    (trimStart text).length < text.length := by
  cases text with
  | nil => simp [lastBlank?] at found
  | cons character rest =>
      have blank : isBlank character = true := by
        simp only [List.take_succ_cons, lastBlank?] at found
        split at found
        · simp at found
        · split at found
          · assumption
          · simp at found
      have shorter := trimStart_length_le rest
      simp only [trimStart, List.dropWhile_cons, blank, if_true,
        List.length_cons] at shorter ⊢
      omega

end CaretReport
