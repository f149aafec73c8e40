import CaretReport.Blank
import CaretReport.Decimal
import CaretReport.IntegerText

/-!
# Numerals of options

How the host of the program reads an integer that an option gives as text.  A
plain numeral is an optional minus sign and ASCII digits without leading zeros.
A text that is no plain numeral is simplified first: blanks around it, a plus
sign, leading zeros, a fraction of zeros and single underscores are taken away,
and what remains has to be a plain numeral.
-/

namespace CaretReport

/-- Why a text is no numeral of an option. -/
inductive NumeralFault where
  | malformed
  | tooLong
deriving DecidableEq, Repr

/-- The integer with a given sign and digits.  The number of digits is checked
before what follows them. -/
def plainDigits (negative : Bool) (digits rest : List Char) :
    Except NumeralFault Int :=
  match digits with
  | [] => .error .malformed
  | '0' :: more =>
      if more = [] ∧ rest = [] then .ok 0 else .error .malformed
  | _ =>
      if integerDigitLimit < digits.length then
        .error .tooLong
      else if rest = [] then
        .ok (signed negative (Nat.ofDigitChars 10 digits 0))
      else
        .error .malformed

def plainNumeral : List Char → Except NumeralFault Int
  | '-' :: text =>
      plainDigits true (text.takeWhile Char.isDigit)
        (text.dropWhile Char.isDigit)
  | text =>
      plainDigits false (text.takeWhile Char.isDigit)
        (text.dropWhile Char.isDigit)

/-- The text after one plus sign, if there is one.  No minus sign may follow
it. -/
def dropPlus? : List Char → Option (List Char)
  | '+' :: '-' :: _ => none
  | '+' :: rest => some rest
  | text => some text

/-- What remains of a numeral when zeros and underscores up to a digit or a
minus sign are dropped.  Before a point, or if nothing else follows, the
character dropped last is kept. -/
def dropZerosAfter? (last : Char) : List Char → Option (List Char)
  | [] => some [last]
  | character :: rest =>
      if character = '0' ∨ character = '_' then
        dropZerosAfter? character rest
      else if character = '.' then
        some (last :: character :: rest)
      else if character = '-' ∨ character.isDigit then
        some (character :: rest)
      else
        none

/-- The unsigned numeral without leading zeros.  It has to start with a
digit. -/
def dropLeadingZeros? : List Char → Option (List Char)
  | [] => none
  | character :: rest =>
      if character = '0' then
        dropZerosAfter? character rest
      else if character.isDigit then
        some (character :: rest)
      else
        none

/-- The numeral without zeros that lead it or follow its minus sign. -/
def dropSignedZeros? : List Char → Option (List Char)
  | '-' :: rest => (dropLeadingZeros? rest).map fun digits => '-' :: digits
  | text => dropLeadingZeros? text

def dropZeroFraction (numeral : List Char) : List Char :=
  match numeral.dropWhile (· != '.') with
  | _ :: '0' :: zeros =>
      if zeros.all (· == '0') then numeral.takeWhile (· != '.') else numeral
  | _ => numeral

def hasDoubleUnderscore : List Char → Bool
  | first :: second :: rest =>
      (first == '_' && second == '_') || hasDoubleUnderscore (second :: rest)
  | _ => false

/-- The numeral without its underscores, if they stand alone between other
characters. -/
def dropUnderscores (numeral : List Char) : List Char :=
  if numeral.head? = some '_' ∨ numeral.getLast? = some '_' ∨
      hasDoubleUnderscore numeral then
    numeral
  else
    numeral.filter (· != '_')

def simplifyNumeral? (text : List Char) : Option (List Char) := do
  let numeral ← dropPlus? (trimNumber text)
  let digits ← dropSignedZeros? numeral
  return dropUnderscores (dropZeroFraction digits)

def simplifiedInteger? (text : List Char) : Option Int := do
  let numeral ← simplifyNumeral? text
  (plainNumeral numeral).toOption

/-- The integer that a text stands for in options.  Only the text as it stands
is refused for its length; one that is too long after simplification is
malformed. -/
def optionInteger (text : List Char) : Except NumeralFault Int :=
  match plainNumeral text with
  | .error .malformed =>
      match simplifiedInteger? text with
      | some number => .ok number
      | none => .error .malformed
  | result => result

end CaretReport
