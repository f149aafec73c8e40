/-!
# Occurrences of a text in another

All occurrences are listed, overlapping ones included, from left to right or
from right to left.  Each search asks again and again for the leftmost or the
rightmost occurrence within its bounds, and then moves one bound past it.
-/

namespace CaretReport

/-- Why a search cannot start. -/
inductive SearchError where
  | emptyNeedle
deriving DecidableEq, Repr

def SearchError.message : SearchError → String
  | .emptyNeedle => "cannot search for an empty needle"

/-- Whether `needle` stands in `haystack` at an index. -/
def occursAt (needle haystack : List Char) (index : Nat) : Bool :=
  needle.isPrefixOf (haystack.drop index)

/-- The bound that an optional end puts on a text of some length.  A missing
end is the length, a negative one counts from the end of the text, and an end
out of range is moved to the nearer end of the text. -/
def searchEnd (length : Nat) : Option Int → Nat
  | none => length
  | some stop =>
      if stop < 0 then (stop + length).toNat else min stop.toNat length

/-- The leftmost occurrence of `needle` that ends at or before `upper`, in a
text whose first character has a given index. -/
def findFrom? (needle : List Char) (upper : Nat) : Nat → List Char → Option Nat
  | index, [] =>
      if index + needle.length ≤ upper ∧ needle = [] then some index else none
  | index, character :: rest =>
      if index + needle.length ≤ upper ∧ needle.isPrefixOf (character :: rest) then
        some index
      else
        findFrom? needle upper (index + 1) rest

/-- The leftmost occurrence of `needle` between two bounds. -/
def findFirst? (needle haystack : List Char) (lower upper : Nat) : Option Nat :=
  findFrom? needle upper lower (haystack.drop lower)

/-- The rightmost occurrence of `needle` at or after `lower` whose index is
smaller than a given one. -/
def findBelow? (needle haystack : List Char) (lower : Nat) : Nat → Option Nat
  | 0 => none
  | index + 1 =>
      if index < lower then
        none
      else if occursAt needle haystack index then
        some index
      else
        findBelow? needle haystack lower index

/-- The rightmost occurrence of `needle` between two bounds. -/
def findLast? (needle haystack : List Char) (lower upper : Nat) : Option Nat :=
  findBelow? needle haystack lower (min upper haystack.length + 1 - needle.length)

theorem bounds_of_findFrom? {needle text : List Char} {upper index found : Nat}
    (hit : findFrom? needle upper index text = some found) :
    index ≤ found ∧ found + needle.length ≤ upper := by
  induction text generalizing index with
  | nil =>
      simp only [findFrom?] at hit
      split at hit
      · simp only [Option.some.injEq] at hit
        omega
      · simp at hit
  | cons character rest ih =>
      simp only [findFrom?] at hit
      split at hit
      · simp only [Option.some.injEq] at hit
        omega
      · have later := ih hit
        omega

theorem lt_of_findBelow? {needle haystack : List Char}
    {lower bound found : Nat}
    (hit : findBelow? needle haystack lower bound = some found) :
    found < bound := by
  induction bound with
  | zero => simp [findBelow?] at hit
  | succ index ih =>
      simp only [findBelow?] at hit
      split at hit
      · simp at hit
      · split at hit
        · simp only [Option.some.injEq] at hit
          omega
        · have := ih hit
          omega

/-- The occurrences of `needle` between two bounds, from left to right: after
each one the lower bound moves past its first character. -/
def occurrences (needle haystack : List Char) (lower upper : Nat) : List Nat :=
  match _hit : findFirst? needle haystack lower upper with
  | none => []
  | some index => index :: occurrences needle haystack (index + 1) upper
termination_by upper + 1 - lower
decreasing_by
  have bounds := bounds_of_findFrom? (by assumption)
  omega

/-- The occurrences of a nonempty `needle` between two bounds, from right to
left: after each one the upper bound moves before its last character. -/
def occurrencesBackward (needle haystack : List Char) (nonempty : needle ≠ [])
    (lower upper : Nat) : List Nat :=
  match _hit : findLast? needle haystack lower upper with
  | none => []
  | some index =>
      index :: occurrencesBackward needle haystack nonempty lower
        (index + needle.length - 1)
termination_by upper
decreasing_by
  have below := lt_of_findBelow? (by assumption)
  have positive := List.length_pos_iff.mpr nonempty
  omega

/-- The occurrences of `needle` from `start` up to an optional end, from left
to right. -/
def occurrences? (needle haystack : List Char) (start : Int)
    (stop : Option Int) : Except SearchError (List Nat) :=
  if needle = [] then
    .error .emptyNeedle
  else
    .ok (occurrences needle haystack start.toNat
      (searchEnd haystack.length stop))

/-- The occurrences of `needle` from `start` up to an optional end, from right
to left. -/
def occurrencesBackward? (needle haystack : List Char) (start : Int)
    (stop : Option Int) : Except SearchError (List Nat) :=
  if empty : needle = [] then
    .error .emptyNeedle
  else
    .ok (occurrencesBackward needle haystack empty start.toNat
      (searchEnd haystack.length stop))

end CaretReport
