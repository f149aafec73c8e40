import CaretReport.IntegerText
import CaretReport.Position

/-!
# Inclusive spans

Every label of a report points at an inclusive span of the reference text.  A
span holds the proof that its ends are in order, so the operations that move
or clamp a span show, where they are defined, that they cannot invert it.
-/

namespace CaretReport

/-- The positions from `first` to `last`, both included. -/
structure Span where
  first : Int
  last : Int
  ordered : first ≤ last
deriving DecidableEq

/-- Why two ends make no span. -/
inductive SpanError where
  | inverted (first last : Int)
deriving DecidableEq, Repr

def SpanError.message : SpanError → String
  | .inverted first last =>
      wordedWith [first, last] s!"span end {last} precedes start {first}"

namespace Span

def ofEnds? (first last : Int) : Except SpanError Span :=
  if ordered : first ≤ last then
    .ok ⟨first, last, ordered⟩
  else
    .error (.inverted first last)

def single (position : Int) : Span :=
  ⟨position, position, Int.le_refl position⟩

/-- The span of the half-open interval from `start` up to `stop`.  An empty
interval collapses onto `start`. -/
def halfOpen (start stop : Int) : Span :=
  ⟨start, max (satSub stop 1) start, Int.le_max_right _ _⟩

/-- The span from `start` to the largest position. -/
def openEnded? (start : Int) : Except SpanError Span :=
  ofEnds? start maxPosition

def length (span : Span) : Int :=
  satAdd (satSub span.last span.first) 1

def contains (span : Span) (position : Int) : Bool :=
  decide (span.first ≤ position ∧ position ≤ span.last)

def overlaps (span other : Span) : Bool :=
  decide (span.first ≤ other.last ∧ other.first ≤ span.last)

/-- Whether every position of `other` lies in the span. -/
def covers (span other : Span) : Bool :=
  decide (span.first ≤ other.first ∧ other.last ≤ span.last)

def precedes (span other : Span) : Bool :=
  decide (span.first < other.first ∨
    span.first = other.first ∧ span.last < other.last)

/-- Whether the span stands at or before `other` in the order of spans. -/
def notAfter (span other : Span) : Bool :=
  !other.precedes span

/-- The span held between zero and `upper`.  A span that lies wholly outside
collapses onto the nearer end. -/
def clamp (span : Span) (upper : Int) : Span where
  first := min (max span.first 0) upper
  last := min (max span.last (min (max span.first 0) upper)) upper
  ordered := by omega

/-- The span moved by `delta` positions, saturating at both ends. -/
def shift (span : Span) (delta : Int) : Span where
  first := satAdd span.first delta
  last := satAdd span.last delta
  ordered := satAdd_le_satAdd span.ordered delta

/-- Whether both ends have few enough digits to be written out. -/
def isWritable (span : Span) : Bool :=
  CaretReport.isWritable span.first && CaretReport.isWritable span.last

def checkWritable (span : Span) : Except NumberError Unit :=
  if span.isWritable then .ok () else .error .tooLongToWrite

/-- The span as `first - last`, the form of a range suffix. -/
def describe (span : Span) : List Char :=
  intDecimal span.first ++ ' ' :: '-' :: ' ' :: intDecimal span.last

/-- The span as `first..=last`, or as its only position. -/
def shown (span : Span) : List Char :=
  if span.first = span.last then
    intDecimal span.first
  else
    intDecimal span.first ++ '.' :: '.' :: '=' :: intDecimal span.last

/-- Spans with the same ends are the same. -/
@[ext] theorem ext {span other : Span} (first : span.first = other.first)
    (last : span.last = other.last) : span = other := by
  cases span
  cases other
  subst first last
  rfl

@[simp] theorem ofEnds?_ends (span : Span) :
    ofEnds? span.first span.last = .ok span := by
  simp [ofEnds?, span.ordered]

theorem contains_iff (span : Span) (position : Int) :
    span.contains position = true ↔
      span.first ≤ position ∧ position ≤ span.last := by
  simp [contains]

theorem covers_iff (span other : Span) :
    span.covers other = true ↔
      span.first ≤ other.first ∧ other.last ≤ span.last := by
  simp [covers]

theorem overlaps_iff (span other : Span) :
    span.overlaps other = true ↔
      span.first ≤ other.last ∧ other.first ≤ span.last := by
  simp [overlaps]

end Span

end CaretReport
