import CaretReport.Decimal
import CaretReport.Quoted

/-!
# Reading integers

An integer is read from text, or taken from a number of another kind.  This
module names the ways in which that fails.
-/

namespace CaretReport

/-- The largest number of digits that an integer may be written with. -/
def integerDigitLimit : Nat := 4300

/-- How many characters of a quoted text a message shows at most. -/
def quotedLimit : Nat := 200

/-- Why a value makes no integer. -/
inductive NumberError where
  | malformed (text : List Char)
  | tooManyDigits (count : Nat)
  | tooLongToWrite
  | infinite
  | notANumber
  | wrongKind (kind : String)
deriving DecidableEq, Repr

def NumberError.message : NumberError → String
  | .malformed text =>
      "invalid literal for int() with base 10: " ++
        String.ofList ((quoted text).take quotedLimit)
  | .tooManyDigits count =>
      s!"Exceeds the limit ({integerDigitLimit} digits) for integer string conversion: " ++
        s!"value has {count} digits; use sys.set_int_max_str_digits() to increase the limit"
  | .tooLongToWrite =>
      s!"Exceeds the limit ({integerDigitLimit} digits) for integer string conversion; " ++
        "use sys.set_int_max_str_digits() to increase the limit"
  | .infinite => "cannot convert float infinity to integer"
  | .notANumber => "cannot convert float NaN to integer"
  | .wrongKind kind =>
      "int() argument must be a string, a bytes-like object or a real number, " ++
        s!"not '{kind}'"

/-- The integer that a text is written as.  The digits are counted as soon as
their run ends, so a numeral with too many of them is refused as such whatever
follows it. -/
def integerOfText (text : List Char) : Except NumberError Int :=
  let (negative, numeral) := splitSign (trimNumber text)
  match digitRun? (numeral.takeWhile isNumeralChar) with
  | none => .error (.malformed text)
  | some digits =>
      if integerDigitLimit < digits.length then
        .error (.tooManyDigits digits.length)
      else if numeral.all isNumeralChar then
        .ok (signed negative (ofDigits digits))
      else
        .error (.malformed text)

def isWritable (number : Int) : Bool :=
  decide ((natDecimal number.natAbs).length ≤ integerDigitLimit)

/-- A wording in which integers are written out.  If one of them has too many
digits, that is complained about instead. -/
def wordedWith (numbers : List Int) (wording : String) : String :=
  if numbers.all isWritable then
    wording
  else
    NumberError.tooLongToWrite.message

end CaretReport
