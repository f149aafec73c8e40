import CaretReport.Segment

/-!
# Merging labels into segments

Labels whose spans overlap share a segment.  Candidates are sorted by their
spans, ties in order of declaration, and then folded into groups from left to
right; a finished group becomes a segment.
-/

namespace CaretReport

/-- A label that waits to be merged.  Its columns count from the start of its
own span. -/
structure Candidate where
  span : Span
  label : PlacedLabel
  index : Int
deriving DecidableEq

namespace Candidate

/-- Candidates stand in the order of their spans, then of their indices. -/
def notAfter (candidate other : Candidate) : Bool :=
  candidate.span.precedes other.span ||
    decide (candidate.span = other.span ∧ candidate.index ≤ other.index)

end Candidate

/-- Placed labels stand in the order of their carets, then of the columns that
they cover. -/
def PlacedLabel.notAfter (label other : PlacedLabel) : Bool :=
  decide (label.position < other.position ∨
    label.position = other.position ∧
      (label.offset < other.offset ∨
        label.offset = other.offset ∧ label.length ≤ other.length))

/-- A segment under construction: the candidate that opened it, and those that
it took in afterwards. -/
structure Group where
  head : Candidate
  rest : List Candidate
deriving DecidableEq

namespace Group

def ofCandidate (candidate : Candidate) : Group :=
  ⟨candidate, []⟩

/-- The candidates of the group, in the order in which they were taken in. -/
def members (group : Group) : List Candidate :=
  group.head :: group.rest

def first (group : Group) : Int :=
  group.head.span.first

def last (group : Group) : Int :=
  (group.rest.map fun candidate => candidate.span.last).foldl max
    group.head.span.last

def absorb (group : Group) (candidate : Candidate) : Group :=
  { group with rest := group.rest ++ [candidate] }

/-- Whether a candidate belongs into the group: it does if it overlaps the
group, except that `splitEqual` keeps apart a candidate with the same start. -/
def takes (splitEqual : Bool) (group : Group) (candidate : Candidate) : Bool :=
  if splitEqual ∧ candidate.span.first = group.first then
    false
  else
    decide
      (group.first ≤ candidate.span.first ∧ candidate.span.last ≤ group.last ∨
        candidate.span.first ≤ group.last ∧ group.first < candidate.span.last)

/-- The label of a candidate, moved to count from the start of the group. -/
def placed (group : Group) (candidate : Candidate) : PlacedLabel :=
  candidate.label.rebased (candidate.span.first - group.first)

def orderedLabels (group : Group) : List PlacedLabel :=
  ((group.members.map group.placed).mergeSort PlacedLabel.notAfter).eraseDups

def close (group : Group) : Except SegmentError Segment :=
  Segment.ofLabels? group.first group.last group.orderedLabels

def collect (splitEqual : Bool) (group : Group) : List Candidate → List Group
  | [] => [group]
  | candidate :: rest =>
      if group.takes splitEqual candidate then
        collect splitEqual (group.absorb candidate) rest
      else
        group :: collect splitEqual (ofCandidate candidate) rest

@[simp] theorem first_absorb (group : Group) (candidate : Candidate) :
    (group.absorb candidate).first = group.first := rfl

@[simp] theorem last_absorb (group : Group) (candidate : Candidate) :
    (group.absorb candidate).last = max group.last candidate.span.last := by
  simp [last, absorb]

@[simp] theorem members_absorb (group : Group) (candidate : Candidate) :
    (group.absorb candidate).members = group.members ++ [candidate] := rfl

theorem flatMap_members_collect (splitEqual : Bool) (group : Group)
    (candidates : List Candidate) :
    (collect splitEqual group candidates).flatMap members =
      group.members ++ candidates := by
  induction candidates generalizing group with
  | nil => simp [collect]
  | cons candidate rest ih =>
      simp only [collect]
      split
      · simp [ih]
      · simp [ih, ofCandidate, members]

end Group

def groupsOf (splitEqual : Bool) (candidates : List Candidate) : List Group :=
  match candidates.mergeSort Candidate.notAfter with
  | [] => []
  | candidate :: rest =>
      Group.collect splitEqual (Group.ofCandidate candidate) rest

def mergeOverlaps (splitEqual : Bool) (candidates : List Candidate) :
    Except SegmentError (List Segment) := do
  let segments ← (groupsOf splitEqual candidates).mapM Group.close
  return segments.mergeSort Segment.notAfter

end CaretReport
