import CaretReport.Decimal

/-!
# Binary floating-point numbers

A number of this kind is a sign, a significand and a power of two.  It is
shown with the fewest decimal digits that read back as the same number: the
reals that round to a number form an interval, and the digits are searched on
coarser decimal grids first.
-/

namespace CaretReport

/-- A binary floating-point number of 64 bits: `finite` stands for
`significand * 2 ^ exponent` with its sign. -/
inductive Binary64 where
  | nan
  | infinite (negative : Bool)
  | finite (negative : Bool) (significand : Nat) (exponent : Int)
deriving DecidableEq, Repr

namespace Binary64

/-- The absolute value as a fraction: numerator and denominator. -/
def magnitude (significand : Nat) (exponent : Int) : Nat × Nat :=
  (significand * Nat.pow 2 exponent.toNat, Nat.pow 2 (-exponent).toNat)

def truncate? : Binary64 → Option Int
  | .finite negative significand exponent =>
      let (numerator, denominator) := magnitude significand exponent
      some (signed negative (numerator / denominator))
  | _ => none

def toInteger? : Binary64 → Option Int
  | .finite negative significand exponent =>
      let (numerator, denominator) := magnitude significand exponent
      if numerator % denominator = 0 then
        some (signed negative (numerator / denominator))
      else
        none
  | _ => none

/-- The least `point` with `numerator / denominator < 10 ^ point`, for a
positive fraction of the range of these numbers. -/
def decimalPoint (numerator denominator : Nat) : Int :=
  if denominator ≤ numerator then
    ((natDecimal (numerator / denominator)).length : Int)
  else
    match (List.range 400).find? fun shift =>
        denominator ≤ numerator * Nat.pow 10 shift with
    | some shift => 1 - (shift : Int)
    | none => 0

/-- The decimal grid point of spacing `10 ^ spacing` that lies nearest to
`value / denominator` among those between `low / denominator` and
`high / denominator`, ends allowed if `closed`.  Only the two grid points next
to the value can be nearest, and a tie goes to the even one. -/
def nearestOnGrid? (low value high denominator : Nat) (closed : Bool)
    (spacing : Int) : Option Nat :=
  let up := Nat.pow 10 spacing.toNat
  let down := Nat.pow 10 (-spacing).toNat
  let unit := up * denominator
  let scaled := value * down
  let below := scaled / unit
  let hit := fun point =>
    if closed then
      decide (low * down ≤ point * unit ∧ point * unit ≤ high * down)
    else
      decide (low * down < point * unit ∧ point * unit < high * down)
  let gapBelow := scaled - below * unit
  let gapAbove := (below + 1) * unit - scaled
  match hit below, hit (below + 1) with
  | true, true =>
      if gapBelow < gapAbove ∨ gapBelow = gapAbove ∧ below % 2 = 0 then
        some below
      else
        some (below + 1)
  | true, false => some below
  | false, true => some (below + 1)
  | false, false => none

/-- The fewest decimal digits that read back as the positive number
`significand * 2 ^ exponent`, with the power of ten of the last digit. -/
def shortestDigits (significand : Nat) (exponent : Int) : Nat × Int :=
  let (scaleUp, denominator) := magnitude 1 (exponent - 2)
  let value := 4 * significand * scaleUp
  let lowGap := if significand = Nat.pow 2 52 ∧ -1074 < exponent then 1 else 2
  let low := (4 * significand - lowGap) * scaleUp
  let high := (4 * significand + 2) * scaleUp
  let closed := significand % 2 = 0
  let point := decimalPoint value denominator
  let found := (List.range 17).findSome? fun (count : Nat) =>
    let spacing := point - (count : Int) - 1
    (nearestOnGrid? low value high denominator closed spacing).map
      fun digits => (digits, spacing)
  found.getD (0, 0)

/-- Digits without trailing zeros, given with the power of ten of the last
digit. -/
def dropZeros (digits : List Char) : List Char :=
  (digits.reverse.dropWhile (· == '0')).reverse

/-- A decimal exponent: its sign, and two digits at least. -/
def exponentText (exponent : Int) : List Char :=
  let digits := natDecimal exponent.natAbs
  let mark := if exponent < 0 then '-' else '+'
  mark :: List.replicate (2 - digits.length) '0' ++ digits

/-- Digits whose decimal point stands after `point` of them.  Numbers from
`10 ^ -4` up to `10 ^ 16` are written positionally, with a digit on either side
of the point; all others with an exponent. -/
def placePoint (digits : List Char) (point : Int) : List Char :=
  let leading := point - 1
  if -4 ≤ leading ∧ leading < 16 then
    if point ≤ 0 then
      '0' :: '.' :: List.replicate (-point).toNat '0' ++ digits
    else if point.toNat < digits.length then
      digits.take point.toNat ++ '.' :: digits.drop point.toNat
    else
      digits ++ List.replicate (point.toNat - digits.length) '0' ++ ['.', '0']
  else
    match digits with
    | [digit] => digit :: 'e' :: exponentText leading
    | _ => digits.take 1 ++ '.' :: digits.drop 1 ++ 'e' :: exponentText leading

def shown : Binary64 → List Char
  | .nan => ['n', 'a', 'n']
  | .infinite negative =>
      (if negative then ['-'] else []) ++ ['i', 'n', 'f']
  | .finite negative significand exponent =>
      let body :=
        if significand = 0 then
          ['0', '.', '0']
        else
          let (number, spacing) := shortestDigits significand exponent
          let digits := natDecimal number
          placePoint (dropZeros digits) (spacing + digits.length)
      (if negative then ['-'] else []) ++ body

end Binary64

end CaretReport
