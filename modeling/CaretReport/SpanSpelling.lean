import CaretReport.Progression
import CaretReport.Span
import CaretReport.Value

/-!
# Spellings of a span

Callers may point at the text in several ways: by a span, by a single
position, by a half-open progression or slice, or by an inclusive pair.  All
of them come down to one inclusive span.  A slice without a stop is open-ended.
-/

namespace CaretReport

/-- A way of pointing at a stretch of the text. -/
inductive SpanSpelling where
  | span (given : Span)
  | progression (positions : Progression)
  | slice (start stop step : Value)
  | tuple (items : List Value)
  | value (given : Value)

/-- Why a spelling makes no span. -/
inductive SpellingError where
  | truthValue
  | steppedRange
  | steppedSlice
  | number (cause : NumberError)
  | span (cause : SpanError)
  | unsupported (shown : List Char)
deriving DecidableEq

def SpellingError.message : SpellingError → String
  | .truthValue => "booleans are not positions"
  | .steppedRange => "stepped ranges cannot be annotated"
  | .steppedSlice => "stepped slices cannot be annotated"
  | .number cause => cause.message
  | .span cause => cause.message
  | .unsupported shown => "unsupported span value: " ++ String.ofList shown

namespace SpanSpelling

def endOf (value : Value) : Except SpellingError Int :=
  value.toInteger.mapError .number

/-- The span of a slice: a missing start is zero, and a missing stop leaves
the span open-ended. -/
def ofSlice (start stop step : Value) : Except SpellingError Span := do
  unless step matches .null || step.isOne do
    throw .steppedSlice
  let first ← if start matches .null then pure 0 else endOf start
  if stop matches .null then
    (Span.openEnded? first).mapError .span
  else
    return Span.halfOpen first (← endOf stop)

def toSpan : SpanSpelling → Except SpellingError Span
  | .span given => .ok given
  | .progression positions =>
      if positions.step = 1 then
        .ok (Span.halfOpen positions.start positions.stop)
      else
        .error .steppedRange
  | .slice start stop step => ofSlice start stop step
  | .tuple [first, last] => do
      let first ← endOf first
      let last ← endOf last
      (Span.ofEnds? first last).mapError .span
  | .tuple items => do
      (Value.checkShown items).mapError .number
      throw (.unsupported (Value.shownTuple items))
  | .value (.bool _) => .error .truthValue
  | .value (.int position) => .ok (Span.single position)
  | .value other => do
      (Value.checkShown [other]).mapError .number
      throw (.unsupported other.shown)

end SpanSpelling

namespace Span

/-- Whether a plain value is an integer inside the span; a truth value counts
as one or zero. -/
def containsValue (span : Span) : Value → Bool
  | .int number => span.contains number
  | .bool flag => span.contains (if flag then 1 else 0)
  | _ => false

end Span

end CaretReport
