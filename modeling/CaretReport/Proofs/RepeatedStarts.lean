import CaretReport.Proofs.EqualStarts

/-!
# Starts that come again inside a segment

Keeping equal starts apart looks only at the start of the segment under
construction.  So two candidates that start together come apart exactly where no
earlier candidate reaches over their start: where one does, both of them are
taken into its segment.
-/

namespace CaretReport

/-- One of the candidates starts before the position and reaches it. -/
def ReachedOver (candidates : List Candidate) (position : Int) : Prop :=
  ∃ earlier ∈ candidates,
    earlier.span.first < position ∧ position ≤ earlier.span.last

/-- A chain that leads from before a position to it or past it passes a candidate
that reaches over it. -/
theorem reachedOver_of_linked {candidates : List Candidate}
    {candidate other : Candidate} {position : Int}
    (found : candidate ∈ candidates) (before : candidate.span.first < position)
    (linked : Candidate.Linked candidates candidate other)
    (reaches : position ≤ other.span.last) :
    ReachedOver candidates position := by
  induction linked with
  | refl => exact ⟨candidate, found, before, reaches⟩
  | @tail neighbour next _ touches ih =>
      by_cases across : position ≤ neighbour.span.last
      · exact ih across
      · -- The neighbour ends before the position, so the next one starts there.
        have overlap := (Span.overlaps_iff _ _).mp touches.2.2
        exact ⟨next, touches.2.1, by omega, reaches⟩

namespace Group

variable {core whole : Group} {leaders : List Candidate}

/-- Past the start of the whole, the core holds all of its members. -/
theorem Completes.mem_core (completes : core.Completes leaders whole)
    {candidate : Candidate} (member : candidate ∈ whole.members)
    (later : whole.first < candidate.span.first) : candidate ∈ core.members := by
  rw [completes.members_eq] at member
  rcases List.mem_append.mp member with leader | inside
  · have starts := completes.leaders_start candidate leader
    have same := completes.first_eq
    omega
  · exact inside

/-- Two members of a part that start together start past its head. -/
theorem first_lt_of_comesApart {groups : List Group} {group : Group}
    (apart : whole.ComesApart groups) (member : group ∈ groups)
    {candidate other : Candidate} (different : candidate ≠ other)
    (same : candidate.span.first = other.span.first)
    (inside : candidate ∈ group.members) (beside : other ∈ group.members) :
    group.head.span.first < candidate.span.first := by
  obtain ⟨leaders, core, completes, rfl⟩ := apart
  rcases List.mem_append.mp member with leader | last
  · obtain ⟨head, _, rfl⟩ := List.mem_map.mp leader
    rw [members_ofCandidate, List.mem_singleton] at inside beside
    exact absurd (inside.trans beside.symm) different
  · rw [List.mem_singleton.mp last] at inside beside ⊢
    rcases List.mem_cons.mp inside with rfl | follower
    · rcases List.mem_cons.mp beside with rfl | follower
      · exact absurd rfl different
      · have later := completes.followers_start other follower
        rw [← same] at later
        exact later
    · exact completes.followers_start candidate follower

end Group

/-- With equal starts kept apart, two candidates that start together are in one
group exactly when an earlier candidate reaches over their start. -/
theorem same_group_iff_reachedOver {candidates : List Candidate}
    {candidate other : Candidate} (found : candidate ∈ candidates)
    (other_found : other ∈ candidates) (different : candidate ≠ other)
    (same : candidate.span.first = other.span.first) :
    (∃ group ∈ groupsOf true candidates,
      candidate ∈ group.members ∧ other ∈ group.members) ↔
        ReachedOver candidates candidate.span.first := by
  obtain ⟨parts, comes_apart, groups_eq⟩ := exists_parts_groupsOf candidates
  have ordered := candidate.span.ordered
  have other_ordered := other.span.ordered
  constructor
  · rintro ⟨group, member, inside, beside⟩
    have chained := chained_of_mem_groupsOf member
    rw [groups_eq] at member
    obtain ⟨part, part_mem, in_part⟩ := List.mem_flatten.mp member
    obtain ⟨whole, _, apart⟩ := exists_source_of_forall₂ comes_apart part_mem
    have later := Group.first_lt_of_comesApart apart in_part different same
      inside beside
    exact reachedOver_of_linked (chained group.head List.mem_cons_self).1 later
      (chained candidate inside).2 ordered
  · rintro ⟨earlier, earlier_found, before, reaches⟩
    have touches {neighbour : Candidate} (neighbour_found : neighbour ∈ candidates)
        (starts : neighbour.span.first = candidate.span.first) :
        Candidate.Touches candidates earlier neighbour := by
      have neighbour_ordered := neighbour.span.ordered
      refine ⟨earlier_found, neighbour_found, (Span.overlaps_iff _ _).mpr ?_⟩
      omega
    obtain ⟨whole, whole_mem, earlier_mem⟩ :=
      exists_group_iff.mpr earlier_found
    have starts := (cohesive_of_mem_groupsOf whole_mem).starts earlier earlier_mem
    have in_whole {neighbour : Candidate}
        (touching : Candidate.Touches candidates earlier neighbour) :
        neighbour ∈ whole.members := by
      obtain ⟨group, group_mem, inside⟩ := exists_group_iff.mpr touching.2.1
      rw [group_eq_of_touches whole_mem group_mem earlier_mem inside touching]
      exact inside
    obtain ⟨part, part_mem, leaders, core, completes, rfl⟩ :=
      exists_target_of_forall₂ comes_apart whole_mem
    refine ⟨core, ?_, ?_, ?_⟩
    · rw [groups_eq]
      exact List.mem_flatten.mpr ⟨_, part_mem, by simp⟩
    · exact completes.mem_core (in_whole (touches found rfl)) (by omega)
    · exact completes.mem_core (in_whole (touches other_found same.symm))
        (by omega)

/-- Merging with equal starts kept apart always succeeds on candidates with
carets under their own spans.  Two different candidates that start together come
into one of its segments exactly when an earlier candidate reaches over their
start. -/
theorem mergeOverlaps_gathers_sameStart_iff (candidates : List Candidate)
    (inside : ∀ candidate ∈ candidates, candidate.CaretInside) :
    ∃ segments, mergeOverlaps true candidates = .ok segments ∧
      ∀ candidate ∈ candidates, ∀ other ∈ candidates, candidate ≠ other →
        candidate.span.first = other.span.first →
          ((∃ group ∈ groupsOf true candidates, ∃ segment ∈ segments,
            group.close = .ok segment ∧ segment.Gathers group.members ∧
              candidate ∈ group.members ∧ other ∈ group.members) ↔
            ReachedOver candidates candidate.span.first) := by
  obtain ⟨segments, merged⟩ := exists_mergeOverlaps_eq_ok inside
  refine ⟨segments, merged, ?_⟩
  intro candidate found other other_found different same
  rw [← same_group_iff_reachedOver found other_found different same]
  constructor
  · rintro ⟨group, member, _, _, _, _, both⟩
    exact ⟨group, member, both⟩
  · rintro ⟨group, member, both⟩
    obtain ⟨segment, segment_mem, closed, gathers⟩ :=
      exists_segment_of_mem_groupsOf merged member
    exact ⟨group, member, segment, segment_mem, closed, gathers, both⟩

/-- Of two pairs of equal starts, one comes apart at the head of its segment,
and the other comes together under a candidate that starts before it. -/
theorem mergeOverlaps_gathers_sameStart_iff_twice :
    let outer := Candidate.bare 0 10 (by decide)
    let shorter := Candidate.bare 3 5 (by decide)
    let longer := Candidate.bare 3 6 (by decide)
    let brief := Candidate.bare 20 21 (by decide)
    let wide := Candidate.bare 20 25 (by decide)
    let candidates := [brief, longer, outer, wide, shorter]
    (∀ candidate ∈ candidates, candidate.CaretInside) ∧
      ∃ segments, mergeOverlaps true candidates = .ok segments ∧
        (∃ group ∈ groupsOf true candidates, ∃ segment ∈ segments,
          segment.Gathers group.members ∧
            shorter ∈ group.members ∧ longer ∈ group.members) ∧
        ¬ ∃ group ∈ groupsOf true candidates, ∃ segment ∈ segments,
          group.close = .ok segment ∧ segment.Gathers group.members ∧
            brief ∈ group.members ∧ wide ∈ group.members := by
  intro outer shorter longer brief wide candidates
  have inside : ∀ candidate ∈ candidates, candidate.CaretInside := by
    simp [candidates, outer, shorter, longer, brief, wide, Candidate.bare,
      Candidate.CaretInside]
  obtain ⟨segments, merged, gathered_iff⟩ :=
    mergeOverlaps_gathers_sameStart_iff candidates inside
  refine ⟨inside, segments, merged, ?_, ?_⟩
  · obtain ⟨group, member, segment, found, -, gathered⟩ :=
      (gathered_iff shorter (by simp [candidates]) longer (by simp [candidates])
        (by decide) rfl).mpr ⟨outer, by simp [candidates], by decide, by decide⟩
    exact ⟨group, member, segment, found, gathered⟩
  · rw [gathered_iff brief (by simp [candidates]) wide (by simp [candidates])
      (by decide) rfl]
    simp [ReachedOver, candidates, outer, shorter, longer, brief, wide,
      Candidate.bare]

/-- Two labels that start together share a segment, though equal starts are to be
kept apart: the segment was opened three columns before them. -/
theorem mergeOverlaps_gathers_nestedStarts :
    let outer := Candidate.bare 0 10 (by decide)
    let shorter := Candidate.bare 3 5 (by decide)
    let longer := Candidate.bare 3 6 (by decide)
    let candidates := [outer, shorter, longer]
    (∀ candidate ∈ candidates,
      0 ≤ candidate.span.first ∧ candidate.span.last ≤ maxPosition ∧
        candidate.label.offset = 0 ∧ candidate.CaretInside) ∧
      shorter ≠ longer ∧ shorter.span.first = longer.span.first ∧
      ∃ segment, mergeOverlaps true candidates = .ok [segment] ∧
        shorter.label.rebased 3 ∈ segment.labels ∧
        longer.label.rebased 3 ∈ segment.labels ∧
        shorter.label.rebased 3 ≠ longer.label.rebased 3 := by
  intro outer shorter longer candidates
  refine ⟨?_, by decide, rfl, ?_⟩
  · simp [candidates, outer, shorter, longer, Candidate.bare,
      Candidate.CaretInside, maxPosition]
  · let group : Group := ⟨outer, [shorter, longer]⟩
    have sorted : candidates.mergeSort Candidate.notAfter = candidates :=
      List.mergeSort_of_pairwise (by decide)
    have groups_eq : groupsOf true candidates = [group] := by
      rw [groupsOf, sorted]
      rfl
    have labels_eq : group.orderedLabels =
        [outer.label, shorter.label.rebased 3, longer.label.rebased 3] := by
      rw [Group.orderedLabels, List.mergeSort_of_pairwise (by decide)]
      rfl
    let segment : Segment := ⟨⟨0, 10, by decide⟩, [outer.label,
      shorter.label.rebased 3, longer.label.rebased 3], by decide⟩
    have closed : group.close = .ok segment := by
      rw [Group.close, labels_eq]
      rfl
    have merged : mergeOverlaps true candidates = .ok [segment] := by
      refine mergeOverlaps_eq_ok_iff.mpr
        ⟨[segment], ?_, (List.mergeSort_singleton segment).symm⟩
      rw [groups_eq]
      exact .cons closed .nil
    exact ⟨segment, merged, by simp [segment], by simp [segment], by decide⟩

end CaretReport
