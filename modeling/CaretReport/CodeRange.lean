/-!
# Ranges of code points

Classes of characters that follow no formula are given as tables of ranges of
code points.
-/

namespace CaretReport

/-- Ranges of code points, each with its first and its last one. -/
abbrev CodeRanges := Array (Nat × Nat)

def CodeRanges.contains (ranges : CodeRanges) (character : Char) : Bool :=
  ranges.any fun (first, last) =>
    first ≤ character.toNat ∧ character.toNat ≤ last

end CaretReport
