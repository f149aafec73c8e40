/-!
# Positions of the reference text

A position is an integer index into the reference text.  Positions handed in
by a caller may be negative or absurdly large, so sums and differences of
positions saturate: they are held between zero and `maxPosition`, and no later
column computation can leave that range.
-/

namespace CaretReport

def maxPosition : Int := 9223372036854775807

/-- Whether an integer fits a signed machine word, of which `maxPosition` is the
largest. -/
def fitsWord (number : Int) : Bool :=
  decide (-maxPosition - 1 ≤ number ∧ number ≤ maxPosition)

/-- The sum of two positions, held between zero and `maxPosition`. -/
def satAdd (left right : Int) : Int :=
  min (max (left + right) 0) maxPosition

/-- The difference of two positions, held between zero and `maxPosition`. -/
def satSub (left right : Int) : Int :=
  min (max (left - right) 0) maxPosition

theorem fitsWord_iff (number : Int) :
    fitsWord number = true ↔ -maxPosition - 1 ≤ number ∧ number ≤ maxPosition := by
  simp [fitsWord]

theorem satAdd_nonneg (left right : Int) : 0 ≤ satAdd left right := by
  simp only [satAdd, maxPosition]
  omega

theorem satAdd_le_maxPosition (left right : Int) :
    satAdd left right ≤ maxPosition := by
  simp only [satAdd, maxPosition]
  omega

theorem satAdd_le_satAdd {left left' : Int} (ordered : left ≤ left')
    (right : Int) : satAdd left right ≤ satAdd left' right := by
  simp only [satAdd, maxPosition]
  omega

theorem satSub_le_satSub {left left' : Int} (ordered : left ≤ left')
    (right : Int) : satSub left right ≤ satSub left' right := by
  simp only [satSub, maxPosition]
  omega

theorem satAdd_eq_add {left right : Int} (nonneg : 0 ≤ left + right)
    (bounded : left + right ≤ maxPosition) :
    satAdd left right = left + right := by
  simp only [satAdd, maxPosition] at *
  omega

end CaretReport
