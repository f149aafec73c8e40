/-!
# Arithmetic progressions

A progression runs from `start` towards `stop` in steps of `step`, and leaves
`stop` out.  Highlights and half-open spans are given as progressions.
-/

namespace CaretReport

/-- The integers from `start` up or down to `stop`, `stop` left out, in steps
of `step`. -/
structure Progression where
  start : Int
  stop : Int
  step : Int
  step_ne_zero : step ≠ 0
deriving DecidableEq

/-- Why arguments make no progression. -/
inductive ProgressionError where
  | zeroStep
deriving DecidableEq, Repr

def ProgressionError.message : ProgressionError → String
  | .zeroStep => "range() arg 3 must not be zero"

namespace Progression

/-- The progression with the given ends and step, if the step is not zero. -/
def ofStep? (start stop step : Int) : Except ProgressionError Progression :=
  if step_ne_zero : step ≠ 0 then
    .ok ⟨start, stop, step, step_ne_zero⟩
  else
    .error .zeroStep

def between (start stop : Int) : Progression :=
  ⟨start, stop, 1, by decide⟩

def contains (progression : Progression) (position : Int) : Bool :=
  if 0 < progression.step then
    decide (progression.start ≤ position ∧ position < progression.stop ∧
      progression.step ∣ position - progression.start)
  else
    decide (progression.stop < position ∧ position ≤ progression.start ∧
      progression.step ∣ position - progression.start)

theorem contains_between (start stop position : Int) :
    (between start stop).contains position = true ↔
      start ≤ position ∧ position < stop := by
  simp [contains, between]

end Progression

end CaretReport
