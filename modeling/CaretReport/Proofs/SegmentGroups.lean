import CaretReport.Merge
import CaretReport.Proofs.Traversal
import Mathlib.Order.Lattice

/-!
# What a segment gathers

Sorted candidates are folded into groups, and every group becomes a segment.
This file proves that, with equal starts kept apart or not, the candidates of a
group cover every position between its ends and nothing outside.  So a segment
is exactly the union of the spans that it gathers, and it holds their labels,
moved to count from its start.
-/

namespace CaretReport

namespace Candidate

/-- The caret of the candidate stands under its own span. -/
def CaretInside (candidate : Candidate) : Prop :=
  0 ≤ candidate.label.position ∧
    candidate.label.position ≤ candidate.span.last - candidate.span.first

/-- The order of candidates in terms of the ends of their spans. -/
theorem notAfter_iff (candidate other : Candidate) :
    candidate.notAfter other = true ↔
      candidate.span.first < other.span.first ∨
        candidate.span.first = other.span.first ∧
          (candidate.span.last < other.span.last ∨
            candidate.span.last = other.span.last ∧
              candidate.index ≤ other.index) := by
  have sameSpan : candidate.span = other.span ↔
      candidate.span.first = other.span.first ∧
        candidate.span.last = other.span.last := by
    cases candidate.span
    cases other.span
    simp
  simp only [notAfter, Span.precedes, Bool.or_eq_true, decide_eq_true_eq,
    sameSpan]
  omega

theorem notAfter_trans (first second third : Candidate)
    (before : first.notAfter second = true)
    (after : second.notAfter third = true) : first.notAfter third = true := by
  rw [notAfter_iff] at before after ⊢
  omega

theorem notAfter_total (candidate other : Candidate) :
    (candidate.notAfter other || other.notAfter candidate) = true := by
  rw [Bool.or_eq_true, notAfter_iff, notAfter_iff]
  omega

theorem first_le_of_notAfter {candidate other : Candidate}
    (ordered : candidate.notAfter other = true) :
    candidate.span.first ≤ other.span.first := by
  rw [notAfter_iff] at ordered
  omega

/-- Sorted candidates have their starts in order. -/
theorem pairwise_first_mergeSort (candidates : List Candidate) :
    (candidates.mergeSort notAfter).Pairwise fun candidate other =>
      candidate.span.first ≤ other.span.first :=
  (List.pairwise_mergeSort notAfter_trans notAfter_total candidates).imp
    first_le_of_notAfter

end Candidate

namespace Group

/-- The candidates of the group lie between its ends and leave no gap. -/
structure Cohesive (group : Group) : Prop where
  starts : ∀ member ∈ group.members, group.first ≤ member.span.first
  ends : ∀ member ∈ group.members, member.span.last ≤ group.last
  filled : ∀ position, group.first ≤ position → position ≤ group.last →
    ∃ member ∈ group.members, member.span.contains position = true

@[simp]
theorem first_ofCandidate (candidate : Candidate) :
    (ofCandidate candidate).first = candidate.span.first :=
  rfl

@[simp]
theorem last_ofCandidate (candidate : Candidate) :
    (ofCandidate candidate).last = candidate.span.last :=
  rfl

@[simp]
theorem members_ofCandidate (candidate : Candidate) :
    (ofCandidate candidate).members = [candidate] :=
  rfl

/-- A group takes in only what starts no later than it ends. -/
theorem first_le_last_of_takes {splitEqual : Bool} {group : Group}
    {candidate : Candidate} (taken : group.takes splitEqual candidate = true) :
    candidate.span.first ≤ group.last := by
  have ordered := candidate.span.ordered
  unfold takes at taken
  split at taken
  · cases taken
  · rw [decide_eq_true_eq] at taken
    omega

theorem cohesive_ofCandidate (candidate : Candidate) :
    (ofCandidate candidate).Cohesive where
  starts := by simp
  ends := by simp
  filled position lower upper :=
    ⟨candidate, by simp, (Span.contains_iff _ _).mpr ⟨lower, upper⟩⟩

/-- Taking in a candidate that starts inside the group leaves no gap. -/
theorem cohesive_absorb {group : Group} {candidate : Candidate}
    (cohesive : group.Cohesive) (after : group.first ≤ candidate.span.first)
    (reached : candidate.span.first ≤ group.last) :
    (group.absorb candidate).Cohesive where
  starts member found := by
    rw [members_absorb, List.mem_append, List.mem_singleton] at found
    rcases found with old | rfl
    · exact cohesive.starts member old
    · exact after
  ends member found := by
    rw [members_absorb, List.mem_append, List.mem_singleton] at found
    rw [last_absorb]
    rcases found with old | rfl
    · have inside := cohesive.ends member old
      omega
    · exact Int.le_max_right _ _
  filled position lower upper := by
    rw [first_absorb] at lower
    rw [last_absorb] at upper
    by_cases inside : position ≤ group.last
    · obtain ⟨member, found, contained⟩ :=
        cohesive.filled position lower inside
      exact ⟨member, by simp [found], contained⟩
    · refine ⟨candidate, by simp, (Span.contains_iff _ _).mpr ?_⟩
      omega

/-- What holds of a group when it is opened, and is kept when it takes in a
candidate, holds of every group that a fold over sorted candidates closes. -/
theorem collect_induction (invariant : Group → Prop) {splitEqual : Bool}
    {candidates : List Candidate}
    (opens : ∀ candidate ∈ candidates, invariant (ofCandidate candidate))
    (absorbs : ∀ group, ∀ candidate ∈ candidates, invariant group →
      group.first ≤ candidate.span.first →
      group.takes splitEqual candidate = true →
      invariant (group.absorb candidate))
    (sorted : candidates.Pairwise fun candidate other =>
      candidate.span.first ≤ other.span.first) {group : Group}
    (holds : invariant group)
    (after : ∀ candidate ∈ candidates, group.first ≤ candidate.span.first)
    {closed : Group} (member : closed ∈ collect splitEqual group candidates) :
    invariant closed := by
  induction candidates generalizing group with
  | nil =>
      rw [collect, List.mem_singleton] at member
      rw [member]
      exact holds
  | cons candidate rest ih =>
      obtain ⟨head_first, rest_sorted⟩ := List.pairwise_cons.mp sorted
      have in_rest {other : Candidate} (found : other ∈ rest) :
          other ∈ candidate :: rest := List.mem_cons_of_mem candidate found
      have rest_opens := fun other found => opens other (in_rest found)
      have rest_absorbs := fun group other found =>
        absorbs group other (in_rest found)
      have head_mem : candidate ∈ candidate :: rest := List.mem_cons_self
      rw [collect] at member
      split at member
      · rename_i taken
        have kept := absorbs group candidate head_mem holds
          (after candidate head_mem) taken
        exact ih rest_opens rest_absorbs rest_sorted kept
          (fun other found => after other (in_rest found)) member
      · rcases List.mem_cons.mp member with rfl | later
        · exact holds
        · exact ih rest_opens rest_absorbs rest_sorted
            (opens candidate head_mem) head_first later

end Group

/-- What holds of a group when it is opened, and is kept when it takes in a
candidate, holds of every group of a merge. -/
theorem groupsOf_induction (invariant : Group → Prop) {splitEqual : Bool}
    {candidates : List Candidate}
    (opens : ∀ candidate ∈ candidates, invariant (.ofCandidate candidate))
    (absorbs : ∀ group, ∀ candidate ∈ candidates, invariant group →
      group.first ≤ candidate.span.first →
      group.takes splitEqual candidate = true →
      invariant (group.absorb candidate)) {group : Group}
    (member : group ∈ groupsOf splitEqual candidates) : invariant group := by
  have sorted := Candidate.pairwise_first_mergeSort candidates
  have same_members (candidate : Candidate) :
      candidate ∈ candidates.mergeSort Candidate.notAfter ↔
        candidate ∈ candidates := List.mem_mergeSort
  unfold groupsOf at member
  split at member
  · cases member
  · rename_i candidate rest sortedEq
    simp only [sortedEq] at sorted same_members
    obtain ⟨head_first, rest_sorted⟩ := List.pairwise_cons.mp sorted
    have in_candidates {other : Candidate} (found : other ∈ rest) :
        other ∈ candidates :=
      (same_members other).mp (List.mem_cons_of_mem candidate found)
    exact Group.collect_induction invariant
      (fun other found => opens other (in_candidates found))
      (fun group other found => absorbs group other (in_candidates found))
      rest_sorted
      (opens candidate ((same_members candidate).mp List.mem_cons_self))
      head_first member

/-- Every group of a merge is without gaps. -/
theorem cohesive_of_mem_groupsOf {splitEqual : Bool}
    {candidates : List Candidate} {group : Group}
    (member : group ∈ groupsOf splitEqual candidates) : group.Cohesive := by
  refine groupsOf_induction Group.Cohesive ?_ ?_ member
  · intro candidate _
    exact Group.cohesive_ofCandidate candidate
  · intro group candidate _ cohesive after taken
    exact Group.cohesive_absorb cohesive after
      (Group.first_le_last_of_takes taken)

/-- The groups of a merge hold the candidates in sorted order. -/
theorem flatMap_members_groupsOf (splitEqual : Bool)
    (candidates : List Candidate) :
    (groupsOf splitEqual candidates).flatMap Group.members =
      candidates.mergeSort Candidate.notAfter := by
  unfold groupsOf
  split
  · rename_i sortedEq
    rw [sortedEq]
    rfl
  · rename_i candidate rest sortedEq
    rw [sortedEq, Group.flatMap_members_collect]
    rfl

/-- The groups of a merge hold every candidate, and no other. -/
theorem exists_group_iff {splitEqual : Bool} {candidates : List Candidate}
    {candidate : Candidate} :
    (∃ group ∈ groupsOf splitEqual candidates, candidate ∈ group.members) ↔
      candidate ∈ candidates := by
  rw [← List.mem_flatMap, flatMap_members_groupsOf, List.mem_mergeSort]

namespace Segment

/-- The segment covers exactly what the candidates cover, and holds exactly
their labels, moved to count from its start. -/
structure Gathers (segment : Segment) (members : List Candidate) : Prop where
  covered : ∀ position, segment.contains position = true ↔
    ∃ member ∈ members, member.span.contains position = true
  labelled : ∀ label, label ∈ segment.labels ↔
    ∃ member ∈ members,
      label = member.label.rebased (member.span.first - segment.first)

/-- A gathered span lies inside the segment. -/
theorem Gathers.covers {segment : Segment} {members : List Candidate}
    (gathers : segment.Gathers members) {member : Candidate}
    (found : member ∈ members) :
    segment.first ≤ member.span.first ∧ member.span.last ≤ segment.last := by
  have ordered := member.span.ordered
  have start := (gathers.covered member.span.first).mpr
    ⟨member, found, (Span.contains_iff _ _).mpr ⟨le_refl _, ordered⟩⟩
  have stop := (gathers.covered member.span.last).mpr
    ⟨member, found, (Span.contains_iff _ _).mpr ⟨ordered, le_refl _⟩⟩
  rw [Span.contains_iff] at start stop
  exact ⟨start.1, stop.2⟩

/-- A segment that is made has the ends and the labels it is made from. -/
theorem fields_of_ofLabels? {first last : Int} {labels : List PlacedLabel}
    {segment : Segment} (made : ofLabels? first last labels = .ok segment) :
    segment.first = first ∧ segment.last = last ∧ segment.labels = labels := by
  unfold ofLabels? at made
  split at made
  · split at made
    · cases made
    · cases made
      exact ⟨rfl, rfl, rfl⟩
  · cases made

/-- Ends in order and carets between them make a segment. -/
theorem exists_ofLabels?_eq_ok {first last : Int} {labels : List PlacedLabel}
    (ordered : first ≤ last)
    (inside : ∀ label ∈ labels,
      0 ≤ label.position ∧ label.position ≤ last - first) :
    ∃ segment, ofLabels? first last labels = .ok segment := by
  unfold ofLabels?
  rw [dif_pos ordered]
  split
  · rename_i label found
    have outside := List.find?_some found
    have caret := inside label (List.mem_of_find?_eq_some found)
    simp [caret] at outside
  · exact ⟨_, rfl⟩

end Segment

namespace Group

theorem mem_orderedLabels {group : Group} {label : PlacedLabel} :
    label ∈ group.orderedLabels ↔
      ∃ member ∈ group.members, label = group.placed member := by
  simp only [orderedLabels, List.mem_eraseDups, List.mem_mergeSort,
    List.mem_map, eq_comm]

/-- Between its ends, a group without gaps is the union of its spans. -/
theorem Cohesive.between_iff {group : Group} (cohesive : group.Cohesive)
    (position : Int) :
    group.first ≤ position ∧ position ≤ group.last ↔
      ∃ member ∈ group.members, member.span.contains position = true := by
  constructor
  · rintro ⟨lower, upper⟩
    exact cohesive.filled position lower upper
  · rintro ⟨member, found, contained⟩
    rw [Span.contains_iff] at contained
    exact ⟨le_trans (cohesive.starts member found) contained.1,
      le_trans contained.2 (cohesive.ends member found)⟩

/-- A group without gaps becomes the segment that gathers its candidates. -/
theorem gathers_of_close {group : Group} {segment : Segment}
    (cohesive : group.Cohesive) (closed : group.close = .ok segment) :
    segment.Gathers group.members := by
  obtain ⟨first_eq, last_eq, labels_eq⟩ := Segment.fields_of_ofLabels? closed
  constructor
  · intro position
    rw [Span.contains_iff, first_eq, last_eq]
    exact cohesive.between_iff position
  · intro label
    rw [labels_eq, mem_orderedLabels, first_eq]
    rfl

/-- A label that is moved to the right stays between zero and where it would
stand without saturation. -/
theorem position_rebased_bounds {label : PlacedLabel} {delta : Int}
    (nonneg : 0 ≤ label.position) (right : 0 ≤ delta) :
    0 ≤ (label.rebased delta).position ∧
      (label.rebased delta).position ≤ label.position + delta := by
  unfold PlacedLabel.rebased
  split
  · omega
  · simp only [satAdd, maxPosition]
    omega

/-- A group without gaps becomes a segment if its carets stand under their own
spans. -/
theorem exists_close_eq_ok {group : Group} (cohesive : group.Cohesive)
    (inside : ∀ member ∈ group.members, member.CaretInside) :
    ∃ segment, group.close = .ok segment := by
  have head_mem : group.head ∈ group.members := List.mem_cons_self
  apply Segment.exists_ofLabels?_eq_ok
  · exact le_trans group.head.span.ordered (cohesive.ends _ head_mem)
  · intro label found
    obtain ⟨member, member_mem, rfl⟩ := mem_orderedLabels.mp found
    have starts := cohesive.starts member member_mem
    have ends := cohesive.ends member member_mem
    have caret := inside member member_mem
    have moved := position_rebased_bounds caret.1 (Int.sub_nonneg.mpr starts)
    refine ⟨moved.1, le_trans moved.2 ?_⟩
    have upper := caret.2
    omega

end Group

section Merging

variable {splitEqual : Bool} {candidates : List Candidate}
variable {segments : List Segment}

/-- The candidates of a group stand in sorted order. -/
theorem pairwise_members_of_mem_groupsOf {group : Group}
    (member : group ∈ groupsOf splitEqual candidates) :
    group.members.Pairwise fun candidate other =>
      candidate.notAfter other = true := by
  have sorted := List.pairwise_mergeSort Candidate.notAfter_trans
    Candidate.notAfter_total candidates
  rw [← flatMap_members_groupsOf splitEqual, List.pairwise_flatMap] at sorted
  exact sorted.1 group member

/-- What holds between any two candidates holds between those of a group. -/
theorem pairwise_members_of_pairwise {related : Candidate → Candidate → Prop}
    (symm : ∀ candidate other, related candidate other →
      related other candidate)
    (all : candidates.Pairwise related) {group : Group}
    (member : group ∈ groupsOf splitEqual candidates) :
    group.members.Pairwise related := by
  have sorted := (List.Perm.pairwise_iff (fun here => symm _ _ here)
    (List.mergeSort_perm candidates Candidate.notAfter)).mpr all
  rw [← flatMap_members_groupsOf splitEqual, List.pairwise_flatMap] at sorted
  exact sorted.1 group member

/-- A merge succeeds with the segments into which its groups close, sorted. -/
theorem mergeOverlaps_eq_ok_iff :
    mergeOverlaps splitEqual candidates = .ok segments ↔
      ∃ closed, List.Forall₂ (fun group segment => group.close = .ok segment)
        (groupsOf splitEqual candidates) closed ∧
          segments = closed.mergeSort Segment.notAfter := by
  simp only [mergeOverlaps, bind_eq_ok_iff, mapM_eq_ok_iff, pure, Except.pure,
    Except.ok.injEq, eq_comm (a := segments)]

/-- All groups of a merge become segments if the carets stand under their own
spans. -/
theorem exists_closed_groups
    (inside : ∀ candidate ∈ candidates, candidate.CaretInside) :
    ∃ closed, List.Forall₂ (fun group segment => group.close = .ok segment)
      (groupsOf splitEqual candidates) closed := by
  obtain ⟨closed, closing⟩ : ∃ closed,
      (groupsOf splitEqual candidates).mapM Group.close = .ok closed := by
    apply exists_mapM_eq_ok
    intro group group_mem
    apply Group.exists_close_eq_ok (cohesive_of_mem_groupsOf group_mem)
    intro member member_mem
    exact inside member (exists_group_iff.mp ⟨group, group_mem, member_mem⟩)
  exact ⟨closed, (mapM_eq_ok_iff _ _ _).mp closing⟩

theorem exists_mergeOverlaps_eq_ok
    (inside : ∀ candidate ∈ candidates, candidate.CaretInside) :
    ∃ segments, mergeOverlaps splitEqual candidates = .ok segments := by
  obtain ⟨closed, closing⟩ := exists_closed_groups inside
  exact ⟨_, mergeOverlaps_eq_ok_iff.mpr ⟨closed, closing, rfl⟩⟩

/-- Every segment of a merge gathers the candidates of one of its groups. -/
theorem exists_group_of_mem_segments
    (merged : mergeOverlaps splitEqual candidates = .ok segments)
    {segment : Segment} (member : segment ∈ segments) :
    ∃ group ∈ groupsOf splitEqual candidates, group.close = .ok segment ∧
      segment.Gathers group.members := by
  obtain ⟨closed, closing, rfl⟩ := mergeOverlaps_eq_ok_iff.mp merged
  rw [List.mem_mergeSort] at member
  obtain ⟨group, found, made⟩ := exists_source_of_forall₂ closing member
  exact ⟨group, found, made,
    Group.gathers_of_close (cohesive_of_mem_groupsOf found) made⟩

/-- Every group of a merge is gathered by one of its segments. -/
theorem exists_segment_of_mem_groupsOf
    (merged : mergeOverlaps splitEqual candidates = .ok segments)
    {group : Group} (member : group ∈ groupsOf splitEqual candidates) :
    ∃ segment ∈ segments, group.close = .ok segment ∧
      segment.Gathers group.members := by
  obtain ⟨closed, closing, rfl⟩ := mergeOverlaps_eq_ok_iff.mp merged
  obtain ⟨segment, found, made⟩ := exists_target_of_forall₂ closing member
  exact ⟨segment, List.mem_mergeSort.mpr found, made,
    Group.gathers_of_close (cohesive_of_mem_groupsOf member) made⟩

end Merging

end CaretReport
