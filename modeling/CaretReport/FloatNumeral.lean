import CaretReport.Binary64
import CaretReport.Blank
import CaretReport.Decimal

/-!
# Reading floating-point numbers

A decimal numeral stands for the binary number nearest to it; between two
numbers that are equally near, the one with the even significand is taken.  The
numeral may have a fraction and an exponent, and its digits may be those of any
script with single underscores between them.
-/

namespace CaretReport

/-- The quotient rounded to the nearest natural number, a tie to the even
one. -/
def roundedQuotient (numerator denominator : Nat) : Nat :=
  let quotient := numerator / denominator
  let twice := 2 * (numerator % denominator)
  if denominator < twice ∨ denominator = twice ∧ quotient % 2 = 1 then
    quotient + 1
  else
    quotient

namespace Binary64

/-- A fraction multiplied by `2 ^ -exponent`. -/
def scaledBy (exponent : Int) (numerator denominator : Nat) : Nat × Nat :=
  (numerator * Nat.pow 2 (-exponent).toNat, denominator * Nat.pow 2 exponent.toNat)

/-- The exponent of the number nearest to a positive fraction: the one that
leaves 53 bits of significand, but none below the least exponent. -/
def exponentOf (numerator denominator : Nat) : Int :=
  let start :=
    max ((numerator.log2 : Int) - (denominator.log2 : Int) - 53) (-1074)
  let (scaled, unit) := scaledBy start numerator denominator
  if Nat.pow 2 53 ≤ scaled / unit then start + 1 else start

def ofRatio (negative : Bool) (numerator denominator : Nat) : Binary64 :=
  let exponent := exponentOf numerator denominator
  let (scaled, unit) := scaledBy exponent numerator denominator
  let significand := roundedQuotient scaled unit
  if significand = 0 then
    .finite negative 0 (-1074)
  else if significand < Nat.pow 2 53 then
    if exponent ≤ 971 then
      .finite negative significand exponent
    else
      .infinite negative
  else if exponent < 971 then
    .finite negative (Nat.pow 2 52) (exponent + 1)
  else
    .infinite negative

/-- The number nearest to `digits * 10 ^ scale`.  A number whose magnitude is
beyond all binary ones is infinite or zero at once. -/
def ofDecimal (negative : Bool) (digits : Nat) (scale : Int) : Binary64 :=
  let point := scale + ((natDecimal digits).length : Int)
  if digits = 0 ∨ point < -400 then
    .finite negative 0 (-1074)
  else if 400 < point then
    .infinite negative
  else
    ofRatio negative (digits * Nat.pow 10 scale.toNat)
      (Nat.pow 10 (-scale).toNat)

def optionalDigits? (text : List Char) : Option (List Nat) :=
  if text = [] then some [] else digitRun? text

/-- The exponent of a numeral, given with its mark; a missing one is zero. -/
def exponentValue? : List Char → Option Int
  | [] => some 0
  | _ :: text =>
      let (negative, numeral) := splitSign text
      (digitRun? numeral).map fun digits => signed negative (ofDigits digits)

def ofNumeral? (negative : Bool) (numeral : List Char) : Option Binary64 := do
  let mantissa := numeral.takeWhile (· != 'e')
  let exponent ← exponentValue? (numeral.dropWhile (· != 'e'))
  let whole ← optionalDigits? (mantissa.takeWhile (· != '.'))
  let fraction ← optionalDigits? ((mantissa.dropWhile (· != '.')).drop 1)
  if whole ++ fraction = [] then
    none
  else
    some (ofDecimal negative (ofDigits (whole ++ fraction))
      (exponent - (fraction.length : Int)))

/-- The number that a text stands for: infinity, no number, or a numeral, with
an optional sign and between blanks. -/
def ofText? (text : List Char) : Option Binary64 :=
  let (negative, word) := splitSign ((trimNumber text).map Char.toLower)
  if word = "inf".toList ∨ word = "infinity".toList then
    some (.infinite negative)
  else if word = "nan".toList then
    some .nan
  else
    ofNumeral? negative word

end Binary64

end CaretReport
