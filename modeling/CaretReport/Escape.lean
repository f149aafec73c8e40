import CaretReport.IntegerText
import CaretReport.Separated
import CaretReport.Style

/-!
# Escape sequences

A terminal is told to change its style by `ESC [`, decimal parameters
separated by semicolons, and a final `m`.  Every style is written as exactly
one such sequence.  `stripEscapes` removes all of them from a text, and
`Style.ofEscape?` reads one of them back.
-/

namespace CaretReport

def escapeChar : Char := '\x1b'

def escapeSequence (parameters : List Nat) : List Char :=
  escapeChar :: '[' :: joinWithChar ';' (parameters.map natDecimal) ++ ['m']

def resetSequence : List Char :=
  escapeSequence [0]

def Style.escape (style : Style) : List Char :=
  escapeSequence style.parameters

def isParameterChar (character : Char) : Bool :=
  character.isDigit || character == ';'

/-- What follows the escape sequence at the start of a text, if the text
starts with one. -/
def afterEscape? : List Char → Option (List Char)
  | first :: '[' :: body =>
      if first = escapeChar then
        match body.dropWhile isParameterChar with
        | 'm' :: rest => some rest
        | _ => none
      else
        none
  | _ => none

theorem length_lt_of_afterEscape? {text rest : List Char}
    (found : afterEscape? text = some rest) : rest.length < text.length := by
  unfold afterEscape? at found
  split at found
  · rename_i body
    split at found
    · split at found
      · rename_i tail dropped
        have shorter := (List.dropWhile_sublist isParameterChar (l := body)).length_le
        rw [dropped] at shorter
        simp only [Option.some.injEq] at found
        subst found
        simp only [List.length_cons] at shorter ⊢
        omega
      · simp at found
    · simp at found
  · simp at found

/-- The text without its escape sequences, read from left to right.  What
remains of a broken sequence stays. -/
def stripEscapes (text : List Char) : List Char :=
  match _found : afterEscape? text with
  | some rest => stripEscapes rest
  | none =>
      match text with
      | [] => []
      | character :: rest => character :: stripEscapes rest
termination_by text.length
decreasing_by
  · exact length_lt_of_afterEscape? (by assumption)
  · simp

/-- Why a text is no style's escape sequence. -/
inductive EscapeError where
  | noSequence (text : List Char)
  | unsupported (text : List Char)
  | unknownCode (code : Int)
  | number (cause : NumberError)
  | color (cause : ColorError)
deriving DecidableEq

def EscapeError.message : EscapeError → String
  | .noSequence text =>
      "not an SGR sequence: " ++ String.ofList (quoted text)
  | .unsupported text =>
      "unsupported SGR sequence: " ++ String.ofList (quoted text)
  | .unknownCode code => s!"unsupported SGR code: {code}"
  | .number cause => cause.message
  | .color cause => cause.message

/-- What stands between `ESC [` and a final `m`. -/
def escapeBody? : List Char → Option (List Char)
  | first :: '[' :: rest =>
      if first = escapeChar ∧ rest.getLast? = some 'm' then
        some rest.dropLast
      else
        none
  | _ => none

/-- Whether a text is one to three decimal digits of any script. -/
def isChannelText (text : List Char) : Bool :=
  decide (1 ≤ text.length ∧ text.length ≤ 3) && text.all isDecimalDigit

def dropFinalBreak (text : List Char) : List Char :=
  if text.getLast? = some '\n' then text.dropLast else text

/-- The channel texts of a 24-bit colour sequence, whose body is `38;2;`
followed by three channels.  One final line break is passed over. -/
def channelTexts? (body : List Char) :
    Option (List Char × List Char × List Char) :=
  match splitAtChar ';' (dropFinalBreak body) with
  | [['3', '8'], ['2'], red, green, blue] =>
      if isChannelText red && isChannelText green && isChannelText blue then
        some (red, green, blue)
      else
        none
  | _ => none

namespace Style

def ofChannelTexts (red green blue : List Char) : Except EscapeError Style := do
  let red ← (integerOfText red).mapError .number
  let green ← (integerOfText green).mapError .number
  let blue ← (integerOfText blue).mapError .number
  let color ← (Rgb.ofChannels? red green blue).mapError .color
  return .foreground (.rgb color)

def ofEscape? (text : List Char) : Except EscapeError Style :=
  match escapeBody? text with
  | none => .error (.noSequence text)
  | some body =>
      match channelTexts? body with
      | some (red, green, blue) => ofChannelTexts red green blue
      | none =>
          if body ≠ [] ∧ body.all isDigitLike then do
            let code ← (integerOfText body).mapError .number
            match ofCode? code.toNat with
            | some style => return style
            | none => throw (.unknownCode code)
          else
            .error (.unsupported text)

end Style

end CaretReport
