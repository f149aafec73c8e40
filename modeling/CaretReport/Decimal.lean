import CaretReport.Blank
import CaretReport.Digit

/-!
# Decimal notation

Integers are written with ASCII digits and read with the digits of any script.
A written integer may stand between blanks, carry one sign, and hold single
underscores between its digits.
-/

namespace CaretReport

def natDecimal (number : Nat) : List Char :=
  Nat.toDigits 10 number

def intDecimal : Int → List Char
  | .ofNat number => natDecimal number
  | .negSucc number => '-' :: natDecimal (number + 1)

/-- The digits of a run in which single underscores may stand between
digits. -/
def digitRun? : List Char → Option (List Nat)
  | [] => none
  | [character] => (digitValue? character).map fun digit => [digit]
  | character :: '_' :: rest => do
      let digit ← digitValue? character
      let digits ← digitRun? rest
      return digit :: digits
  | character :: rest => do
      let digit ← digitValue? character
      let digits ← digitRun? rest
      return digit :: digits

def ofDigits (digits : List Nat) : Nat :=
  digits.foldl (fun number digit => 10 * number + digit) 0

def splitSign : List Char → Bool × List Char
  | '-' :: rest => (true, rest)
  | '+' :: rest => (false, rest)
  | text => (false, text)

def signed (negative : Bool) (number : Nat) : Int :=
  if negative then -(number : Int) else number

/-- Whether a character may stand in a numeral: a decimal digit of any script
or an underscore. -/
def isNumeralChar (character : Char) : Bool :=
  isDecimalDigit character || character == '_'

theorem natDecimal_ne_nil (number : Nat) : natDecimal number ≠ [] := by
  simp [natDecimal]

theorem length_natDecimal_le {number : Nat} (small : number ≤ 255) :
    (natDecimal number).length ≤ 3 :=
  (Nat.length_toDigits_le_iff (by decide) (by decide)).mpr (by omega)

theorem isDigit_of_mem_natDecimal {number : Nat} {character : Char}
    (member : character ∈ natDecimal number) : character.isDigit = true :=
  Nat.isDigit_of_mem_toDigits (by decide) (by decide) member

end CaretReport
