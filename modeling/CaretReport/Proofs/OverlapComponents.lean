import CaretReport.Proofs.SegmentGroups
import Mathlib.Data.List.Pairwise
import Mathlib.Logic.Relation

/-!
# Segments are the components of overlap

When equal starts are not kept apart, merging computes the connected components
of the overlap relation.  Two candidates come into the same segment exactly
when a chain of overlapping candidates leads from one to the other.  The fold
compares a candidate only with the ends of the group; that this finds every
chain rests on the sorted starts.
-/

namespace CaretReport

namespace Candidate

/-- Two of the candidates share a position. -/
def Touches (candidates : List Candidate) (candidate other : Candidate) : Prop :=
  candidate ∈ candidates ∧ other ∈ candidates ∧
    candidate.span.overlaps other.span = true

/-- A chain of candidates that share positions leads from one to the other. -/
def Linked (candidates : List Candidate) : Candidate → Candidate → Prop :=
  Relation.ReflTransGen (Touches candidates)

/-- Sharing a position goes both ways. -/
instance (candidates : List Candidate) : Std.Symm (Touches candidates) where
  symm candidate other touches := by
    obtain ⟨left, right, overlap⟩ := touches
    rw [Span.overlaps_iff] at overlap
    exact ⟨right, left, (Span.overlaps_iff _ _).mpr ⟨overlap.2, overlap.1⟩⟩

theorem linked_symm {candidates : List Candidate} {candidate other : Candidate}
    (linked : Linked candidates candidate other) :
    Linked candidates other candidate :=
  Relation.ReflTransGen.stdSymm.symm candidate other linked

end Candidate

namespace Group

/-- The candidates of the group are linked among the given ones to the one
that opened it. -/
def Chained (candidates : List Candidate) (group : Group) : Prop :=
  ∀ member ∈ group.members,
    member ∈ candidates ∧ Candidate.Linked candidates group.head member

theorem chained_ofCandidate {candidates : List Candidate}
    {candidate : Candidate} (found : candidate ∈ candidates) :
    (ofCandidate candidate).Chained candidates := by
  intro member member_mem
  rw [members_ofCandidate, List.mem_singleton] at member_mem
  rw [member_mem]
  exact ⟨found, Relation.ReflTransGen.refl⟩

/-- A candidate that starts inside a group without gaps overlaps the candidate
there, so it is linked to the group. -/
theorem chained_absorb {candidates : List Candidate} {group : Group}
    {candidate : Candidate} (found : candidate ∈ candidates)
    (cohesive : group.Cohesive) (chained : group.Chained candidates)
    (after : group.first ≤ candidate.span.first)
    (reached : candidate.span.first ≤ group.last) :
    (group.absorb candidate).Chained candidates := by
  intro member member_mem
  rw [members_absorb, List.mem_append, List.mem_singleton] at member_mem
  rcases member_mem with old | rfl
  · exact chained member old
  · obtain ⟨neighbour, neighbour_mem, contained⟩ :=
      cohesive.filled member.span.first after reached
    obtain ⟨neighbour_found, linked⟩ := chained neighbour neighbour_mem
    have ordered := member.span.ordered
    rw [Span.contains_iff] at contained
    refine ⟨found, linked.tail ⟨neighbour_found, found, ?_⟩⟩
    rw [Span.overlaps_iff]
    omega

/-- Two groups stand apart, in either order. -/
def Apart (group other : Group) : Prop :=
  group.last < other.first ∨ other.last < group.first

instance : Std.Symm Apart where
  symm _ _ apart := Or.symm apart

/-- When equal starts are not kept apart, what a group leaves out starts past
its end. -/
theorem last_lt_first_of_not_takes {group : Group} {candidate : Candidate}
    (after : group.first ≤ candidate.span.first)
    (left_out : ¬ group.takes false candidate = true) :
    group.last < candidate.span.first := by
  have ordered := candidate.span.ordered
  simp only [takes, Bool.false_eq_true, false_and, if_false,
    decide_eq_true_eq] at left_out
  omega

/-- The groups that a fold closes stand apart, from left to right. -/
theorem pairwise_collect_false {group : Group} {candidates : List Candidate}
    (after : ∀ candidate ∈ candidates, group.first ≤ candidate.span.first)
    (sorted : candidates.Pairwise fun candidate other =>
      candidate.span.first ≤ other.span.first) :
    (collect false group candidates).Pairwise fun earlier later =>
      earlier.last < later.first := by
  induction candidates generalizing group with
  | nil => exact List.pairwise_singleton _ _
  | cons candidate rest ih =>
      obtain ⟨head_first, rest_sorted⟩ := List.pairwise_cons.mp sorted
      have head_after := after candidate List.mem_cons_self
      rw [collect]
      split
      · exact ih (fun other found =>
          after other (List.mem_cons_of_mem candidate found)) rest_sorted
      · rename_i left_out
        have gap := last_lt_first_of_not_takes head_after left_out
        refine List.pairwise_cons.mpr ⟨?_, ih head_first rest_sorted⟩
        intro later later_mem
        have opened : group.last < (ofCandidate candidate).first := gap
        -- Every later group opens at or after the candidate that was left out.
        refine collect_induction (fun later => group.last < later.first)
          ?_ ?_ rest_sorted opened head_first later_mem
        · intro other found
          exact Int.lt_of_lt_of_le gap (head_first other found)
        · intro later other _ apart _ _
          exact apart

end Group

/-- Every group of a merge is linked within itself. -/
theorem chained_of_mem_groupsOf {splitEqual : Bool}
    {candidates : List Candidate} {group : Group}
    (member : group ∈ groupsOf splitEqual candidates) :
    group.Chained candidates := by
  refine (groupsOf_induction (fun group =>
    group.Cohesive ∧ group.Chained candidates) ?_ ?_ member).2
  · intro candidate found
    exact ⟨Group.cohesive_ofCandidate candidate,
      Group.chained_ofCandidate found⟩
  · intro group candidate found kept after taken
    have reached := Group.first_le_last_of_takes taken
    exact ⟨Group.cohesive_absorb kept.1 after reached,
      Group.chained_absorb found kept.1 kept.2 after reached⟩

/-- The groups of a merge stand apart, from left to right. -/
theorem pairwise_groupsOf_false (candidates : List Candidate) :
    (groupsOf false candidates).Pairwise fun earlier later =>
      earlier.last < later.first := by
  have sorted := Candidate.pairwise_first_mergeSort candidates
  unfold groupsOf
  split
  · exact List.Pairwise.nil
  · rename_i candidate rest sortedEq
    rw [sortedEq, List.pairwise_cons] at sorted
    exact Group.pairwise_collect_false sorted.1 sorted.2

/-- Candidates that share a position are in no two groups. -/
theorem group_eq_of_touches {candidates : List Candidate} {group other : Group}
    (group_mem : group ∈ groupsOf false candidates)
    (other_mem : other ∈ groupsOf false candidates)
    {candidate neighbour : Candidate} (inside : candidate ∈ group.members)
    (beside : neighbour ∈ other.members)
    (touches : Candidate.Touches candidates candidate neighbour) :
    group = other := by
  by_contra different
  have all_apart : (groupsOf false candidates).Pairwise Group.Apart :=
    (pairwise_groupsOf_false candidates).imp Or.inl
  have apart := all_apart.forall group_mem other_mem different
  have cohesive := cohesive_of_mem_groupsOf group_mem
  have other_cohesive := cohesive_of_mem_groupsOf other_mem
  have starts := cohesive.starts candidate inside
  have ends := cohesive.ends candidate inside
  have other_starts := other_cohesive.starts neighbour beside
  have other_ends := other_cohesive.ends neighbour beside
  have overlap := (Span.overlaps_iff _ _).mp touches.2.2
  rcases apart with before | behind
  · omega
  · omega

/-- Candidates are in the same group exactly when they are linked. -/
theorem same_group_iff_linked {candidates : List Candidate}
    {candidate other : Candidate} (found : candidate ∈ candidates) :
    (∃ group ∈ groupsOf false candidates,
      candidate ∈ group.members ∧ other ∈ group.members) ↔
        Candidate.Linked candidates candidate other := by
  constructor
  · rintro ⟨group, group_mem, inside, beside⟩
    have chained := chained_of_mem_groupsOf group_mem
    exact (Candidate.linked_symm (chained candidate inside).2).trans
      (chained other beside).2
  · intro linked
    induction linked with
    | refl =>
        obtain ⟨group, group_mem, inside⟩ := exists_group_iff.mpr found
        exact ⟨group, group_mem, inside, inside⟩
    | tail _ touches ih =>
        obtain ⟨group, group_mem, inside, beside⟩ := ih
        obtain ⟨next, next_mem, reached⟩ := exists_group_iff.mpr touches.2.1
        have same := group_eq_of_touches group_mem next_mem beside reached touches
        rw [← same] at reached
        exact ⟨group, group_mem, inside, reached⟩

theorem notAfter_of_last_lt_first {segment next : Segment}
    (before : segment.last < next.first) : segment.notAfter next = true := by
  have ordered := segment.ordered
  have next_ordered := next.ordered
  simp only [Segment.notAfter, Span.notAfter, Span.precedes, Bool.not_eq_true',
    decide_eq_false_iff_not]
  omega

/-- The groups of candidates with carets under their own spans close into the
segments of the merge, in the same order. -/
theorem mergeOverlaps_false_eq_ok {candidates : List Candidate}
    (inside : ∀ candidate ∈ candidates, candidate.CaretInside) :
    ∃ segments, mergeOverlaps false candidates = .ok segments ∧
      List.Forall₂ (fun group segment => group.close = .ok segment)
        (groupsOf false candidates) segments ∧
      segments.Pairwise fun segment next => segment.last < next.first := by
  obtain ⟨segments, closed⟩ := exists_closed_groups inside
  have increasing : segments.Pairwise fun segment next =>
      segment.last < next.first := by
    refine pairwise_of_forall₂ closed ?_ (pairwise_groupsOf_false candidates)
    intro group other segment next group_closed other_closed before
    obtain ⟨-, last_eq, -⟩ := Segment.fields_of_ofLabels? group_closed
    obtain ⟨first_eq, -, -⟩ := Segment.fields_of_ofLabels? other_closed
    rw [last_eq, first_eq]
    exact before
  have unmoved : segments.mergeSort Segment.notAfter = segments :=
    List.mergeSort_of_pairwise (increasing.imp notAfter_of_last_lt_first)
  exact ⟨segments,
    mergeOverlaps_eq_ok_iff.mpr ⟨segments, closed, unmoved.symm⟩, closed,
    increasing⟩

/-- Merging without keeping equal starts apart always succeeds on candidates
with carets under their own spans, and computes the components of overlap: the
groups share out the candidates, two candidates come into one group exactly
when they are linked, every group becomes the segment that is the union of its
spans, and the segments stand apart in increasing order. -/
theorem mergeOverlaps_components (candidates : List Candidate)
    (inside : ∀ candidate ∈ candidates, candidate.CaretInside) :
    ∃ segments, mergeOverlaps false candidates = .ok segments ∧
      List.Forall₂ (fun group segment =>
        group.close = .ok segment ∧ segment.Gathers group.members)
          (groupsOf false candidates) segments ∧
      ((groupsOf false candidates).flatMap Group.members).Perm candidates ∧
      (∀ candidate ∈ candidates, ∀ other ∈ candidates,
        (∃ group ∈ groupsOf false candidates,
          candidate ∈ group.members ∧ other ∈ group.members) ↔
            Candidate.Linked candidates candidate other) ∧
      segments.Pairwise fun segment next => segment.last < next.first := by
  obtain ⟨segments, merged, closed, increasing⟩ :=
    mergeOverlaps_false_eq_ok inside
  refine ⟨segments, merged, ?_, ?_, ?_, increasing⟩
  · have cohesive : ∀ group ∈ groupsOf false candidates, group.Cohesive :=
      fun _ => cohesive_of_mem_groupsOf
    refine ((List.forall₂_and_left _ _).mpr ⟨cohesive, closed⟩).imp ?_
    rintro group segment ⟨group_cohesive, group_closed⟩
    exact ⟨group_closed, Group.gathers_of_close group_cohesive group_closed⟩
  · rw [flatMap_members_groupsOf]
    exact List.mergeSort_perm _ _
  · intro candidate found other _
    exact same_group_iff_linked found

/-- A candidate with an empty message and its caret at its start. -/
def Candidate.bare (first last : Int) (ordered : first ≤ last) : Candidate where
  span := ⟨first, last, ordered⟩
  label :=
    { position := 0, offset := 0, length := last - first + 1
      message := ⟨.empty, []⟩, children := []
      caretColor := none, highlightColor := none }
  index := 0

/-- Adjacent spans stay apart, while two spans without a common position are
linked by a third. -/
theorem mergeOverlaps_components_bridged :
    let apart := Candidate.bare 0 1 (by decide)
    let left := Candidate.bare 2 4 (by decide)
    let bridge := Candidate.bare 4 6 (by decide)
    let right := Candidate.bare 6 6 (by decide)
    let candidates := [right, apart, bridge, left]
    (∀ candidate ∈ candidates, candidate.CaretInside) ∧
      ∃ segments, mergeOverlaps false candidates = .ok segments ∧
        ((groupsOf false candidates).flatMap Group.members).Perm candidates ∧
        (∃ group ∈ groupsOf false candidates,
          left ∈ group.members ∧ right ∈ group.members) ∧
        segments.Pairwise fun segment next => segment.last < next.first := by
  intro apart left bridge right candidates
  have inside : ∀ candidate ∈ candidates, candidate.CaretInside := by
    simp [candidates, apart, left, bridge, right, Candidate.bare,
      Candidate.CaretInside]
  obtain ⟨segments, merged, -, shared, components, increasing⟩ :=
    mergeOverlaps_components candidates inside
  have first_step : Candidate.Touches candidates left bridge :=
    ⟨by simp [candidates], by simp [candidates], by decide⟩
  have second_step : Candidate.Touches candidates bridge right :=
    ⟨by simp [candidates], by simp [candidates], by decide⟩
  have linked := (components left first_step.1 right second_step.2.1).mpr
    ((Relation.ReflTransGen.single first_step).tail second_step)
  exact ⟨inside, segments, merged, shared, linked, increasing⟩

end CaretReport
