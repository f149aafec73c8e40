import CaretReport.Proofs.SegmentGroups

/-!
# Labels on their segments

A candidate is anchored when its label lies over its own span, inside the range
of positions.  Merging anchored candidates then never saturates: a label of a
segment, counted from the start of that segment, stands exactly where its
candidate stood, and the labels of a segment cover it without gaps.
-/

namespace CaretReport

/-- The label of the candidate lies over its span, with its caret inside, and
the span lies inside the range of positions. -/
structure Candidate.Anchored (candidate : Candidate) : Prop where
  first_nonneg : 0 ≤ candidate.span.first
  last_lt : candidate.span.last < maxPosition
  offset_eq : candidate.label.offset = 0
  length_eq : candidate.label.length = candidate.span.length
  caret_inside : candidate.CaretInside

/-- A span inside the range of positions has its ordinary length. -/
theorem Span.length_eq {span : Span} (nonneg : 0 ≤ span.first)
    (bounded : span.last < maxPosition) :
    span.length = span.last - span.first + 1 := by
  have ordered := span.ordered
  simp only [Span.length, satAdd, satSub]
  omega

namespace PlacedLabel

/-- A label that is moved within the range of positions keeps everything but
its columns. -/
theorem rebased_eq {label : PlacedLabel} {delta : Int}
    (position_nonneg : 0 ≤ label.position + delta)
    (position_le : label.position + delta ≤ maxPosition)
    (offset_nonneg : 0 ≤ label.offset + delta)
    (offset_le : label.offset + delta ≤ maxPosition) :
    label.rebased delta = { label with
      position := label.position + delta
      offset := label.offset + delta } := by
  unfold rebased
  split
  · rename_i unmoved
    rw [unmoved, Int.add_zero, Int.add_zero]
  · rw [satAdd_eq_add position_nonneg position_le,
      satAdd_eq_add offset_nonneg offset_le]

/-- The label covers a position of the text echoed above its segment. -/
def Covers (label : PlacedLabel) (first position : Int) : Prop :=
  first + label.offset ≤ position ∧
    position ≤ first + label.offset + label.length - 1

end PlacedLabel

/-- The segment shows the candidate as its label: inside the segment, over the
span of the candidate, and with the caret where the candidate had it. -/
structure Segment.Shows (segment : Segment) (candidate : Candidate)
    (label : PlacedLabel) : Prop where
  covers : segment.first ≤ candidate.span.first ∧
    candidate.span.last ≤ segment.last
  starts : segment.first + label.offset = candidate.span.first
  stops : segment.first + label.offset + label.length - 1 = candidate.span.last
  caret : segment.first + label.position =
    candidate.span.first + candidate.label.position
  content : label = { candidate.label with
    position := label.position
    offset := label.offset }

namespace Segment.Gathers

variable {segment : Segment} {members : List Candidate}
variable (gathers : segment.Gathers members)
variable (anchored : ∀ member ∈ members, member.Anchored)

include gathers anchored

theorem first_nonneg : 0 ≤ segment.first := by
  have ordered := segment.ordered
  obtain ⟨member, found, contains⟩ := (gathers.covered segment.first).mp
    ((Span.contains_iff _ _).mpr ⟨le_refl _, ordered⟩)
  rw [Span.contains_iff] at contains
  exact le_trans (anchored member found).first_nonneg contains.1

/-- Moved to count from the start of the segment, the label of a gathered
candidate stands where it stood. -/
theorem shows_rebased {member : Candidate} (found : member ∈ members) :
    segment.Shows member
      (member.label.rebased (member.span.first - segment.first)) := by
  have anchor := anchored member found
  have covers := gathers.covers found
  have start := first_nonneg gathers anchored
  have caret := anchor.caret_inside
  have offset := anchor.offset_eq
  have below := anchor.last_lt
  have ordered := member.span.ordered
  have length := Span.length_eq anchor.first_nonneg below
  rw [← anchor.length_eq] at length
  unfold Candidate.CaretInside at caret
  rw [PlacedLabel.rebased_eq (by omega) (by omega) (by omega) (by omega)]
  constructor
  · exact covers
  · change segment.first +
      (member.label.offset + (member.span.first - segment.first)) = _
    omega
  · change segment.first +
      (member.label.offset + (member.span.first - segment.first)) +
        member.label.length - 1 = _
    omega
  · change segment.first +
      (member.label.position + (member.span.first - segment.first)) = _
    omega
  · rfl

theorem exists_shows {label : PlacedLabel} (found : label ∈ segment.labels) :
    ∃ member ∈ members, segment.Shows member label := by
  obtain ⟨member, member_mem, rfl⟩ := (gathers.labelled label).mp found
  exact ⟨member, member_mem, shows_rebased gathers anchored member_mem⟩

/-- The labels of a segment cover it, and nothing outside. -/
theorem contains_iff_covers {position : Int} :
    segment.contains position = true ↔
      ∃ label ∈ segment.labels, label.Covers segment.first position := by
  rw [gathers.covered]
  unfold PlacedLabel.Covers
  constructor
  · rintro ⟨member, found, contains⟩
    rw [Span.contains_iff] at contains
    have shows := shows_rebased gathers anchored found
    refine ⟨_, (gathers.labelled _).mpr ⟨member, found, rfl⟩, ?_⟩
    rw [shows.stops, shows.starts]
    exact contains
  · rintro ⟨label, found, covers⟩
    obtain ⟨member, member_mem, shows⟩ := exists_shows gathers anchored found
    rw [shows.stops, shows.starts] at covers
    exact ⟨member, member_mem, (Span.contains_iff _ _).mpr covers⟩

end Segment.Gathers

section Merging

variable {splitEqual : Bool} {candidates : List Candidate}
variable {segments : List Segment}
variable (merged : mergeOverlaps splitEqual candidates = .ok segments)
variable (anchored : ∀ candidate ∈ candidates, candidate.Anchored)

include merged anchored

/-- Every segment of a merge of anchored candidates gathers anchored
candidates. -/
theorem exists_anchored_of_mem_segments {segment : Segment}
    (member : segment ∈ segments) :
    ∃ members, segment.Gathers members ∧
      (∀ candidate ∈ members, candidate ∈ candidates) ∧
      ∀ candidate ∈ members, candidate.Anchored := by
  obtain ⟨group, found, _, gathers⟩ :=
    exists_group_of_mem_segments merged member
  have among : ∀ candidate ∈ group.members, candidate ∈ candidates :=
    fun candidate inside => exists_group_iff.mp ⟨group, found, inside⟩
  exact ⟨group.members, gathers, among,
    fun candidate inside => anchored candidate (among candidate inside)⟩

/-- Every label of a merge shows one of the candidates. -/
theorem exists_candidate_shown {segment : Segment} (member : segment ∈ segments)
    {label : PlacedLabel} (found : label ∈ segment.labels) :
    ∃ candidate ∈ candidates, segment.Shows candidate label := by
  obtain ⟨members, gathers, among, anchors⟩ :=
    exists_anchored_of_mem_segments merged anchored member
  obtain ⟨candidate, inside, shows⟩ := gathers.exists_shows anchors found
  exact ⟨candidate, among candidate inside, shows⟩

/-- Every candidate of a merge is shown by one of the segments. -/
theorem exists_label_shows {candidate : Candidate}
    (member : candidate ∈ candidates) :
    ∃ segment ∈ segments, ∃ label ∈ segment.labels,
      segment.Shows candidate label := by
  obtain ⟨group, found, inside⟩ := exists_group_iff.mpr member
  obtain ⟨segment, segment_mem, _, gathers⟩ :=
    exists_segment_of_mem_groupsOf merged found
  have anchors : ∀ other ∈ group.members, other.Anchored :=
    fun other kept => anchored other (exists_group_iff.mp ⟨group, found, kept⟩)
  exact ⟨segment, segment_mem, _,
    (gathers.labelled _).mpr ⟨candidate, inside, rfl⟩,
    gathers.shows_rebased anchors inside⟩

end Merging

end CaretReport
