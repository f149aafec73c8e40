import CaretReport.Proofs.OverlapComponents

/-!
# Equal starts kept apart

When equal starts are kept apart, the candidates at the start of an overlap
component come apart, all but the longest of them, and the rest of the component
stays together.  The proof runs both folds side by side: the fold that takes
equal starts in builds the whole component, while the other builds only its
core, the part from the latest of the equal starts on.  The core ends where the
whole ends, so that past the equal starts both folds decide alike.
-/

namespace CaretReport

namespace Group

/-- The group is the core of a whole that takes equal starts in: it lacks only
the leaders, which start where the core starts. -/
structure Completes (core : Group) (leaders : List Candidate) (whole : Group) :
    Prop where
  members_eq : whole.members = leaders ++ core.members
  first_eq : core.first = whole.first
  last_eq : core.last = whole.last
  leaders_start : ∀ leader ∈ leaders, leader.span.first = core.first
  followers_start : ∀ follower ∈ core.rest, core.first < follower.span.first

theorem completes_ofCandidate (candidate : Candidate) :
    (ofCandidate candidate).Completes [] (ofCandidate candidate) where
  members_eq := rfl
  first_eq := rfl
  last_eq := rfl
  leaders_start := by simp
  followers_start := by simp [ofCandidate]

/-- As long as equal starts arrive, the core is its head alone. -/
theorem eq_ofCandidate_of_same_first {core whole : Group}
    {leaders : List Candidate} {candidate : Candidate}
    (completes : core.Completes leaders whole)
    (same : candidate.span.first = core.first)
    (after : ∀ member ∈ core.members, member.notAfter candidate = true) :
    core = ofCandidate core.head := by
  have alone : core.rest = [] := by
    refine List.eq_nil_iff_forall_not_mem.mpr fun follower found => ?_
    have starts := completes.followers_start follower found
    have follower_first := Candidate.first_le_of_notAfter
      (after follower (List.mem_cons_of_mem core.head found))
    omega
  rw [ofCandidate, ← alone]

theorem completes_of_same_first {core whole : Group} {leaders : List Candidate}
    {candidate : Candidate} (completes : core.Completes leaders whole)
    (alone : core = ofCandidate core.head)
    (same : candidate.span.first = core.first)
    (longer : core.last ≤ candidate.span.last) :
    (ofCandidate candidate).Completes (leaders ++ [core.head])
      (whole.absorb candidate) where
  members_eq := by
    rw [members_absorb, completes.members_eq, alone]
    rfl
  first_eq := by
    rw [first_absorb, ← completes.first_eq]
    exact same
  last_eq := by
    rw [last_absorb, ← completes.last_eq]
    exact (max_eq_right longer).symm
  leaders_start := by
    intro leader found
    rw [first_ofCandidate, same]
    rcases List.mem_append.mp found with old | new
    · exact completes.leaders_start leader old
    · rw [List.mem_singleton.mp new]
      rfl
  followers_start := by simp [ofCandidate]

theorem takes_false_of_same_first {group : Group} {candidate : Candidate}
    (same : candidate.span.first = group.first)
    (ordered : group.first ≤ group.last) :
    group.takes false candidate = true := by
  simp only [takes, Bool.false_eq_true, false_and, if_false, decide_eq_true_eq]
  omega

/-- At an equal start the whole takes the candidate in, while the core, which is
its head alone, is left behind as a leader, and the candidate opens a new
core. -/
theorem step_of_same_first {core whole : Group} {leaders : List Candidate}
    {candidate : Candidate} (completes : core.Completes leaders whole)
    (same : candidate.span.first = core.first)
    (after : ∀ member ∈ core.members, member.notAfter candidate = true) :
    whole.takes false candidate = true ∧ ¬ core.takes true candidate = true ∧
      core = ofCandidate core.head ∧
      (ofCandidate candidate).Completes (leaders ++ [core.head])
        (whole.absorb candidate) := by
  have alone := eq_ofCandidate_of_same_first completes same after
  have head_after := after core.head List.mem_cons_self
  have ordered : whole.first ≤ whole.last := by
    rw [← completes.first_eq, ← completes.last_eq, alone]
    exact core.head.span.ordered
  have longer : core.last ≤ candidate.span.last := by
    rw [Candidate.notAfter_iff] at head_after
    have same_head : candidate.span.first = core.head.span.first := same
    rw [alone, last_ofCandidate]
    omega
  refine ⟨?_, ?_, alone, completes_of_same_first completes alone same longer⟩
  · exact takes_false_of_same_first (same.trans completes.first_eq) ordered
  · simp [takes, same]

theorem completes_absorb {core whole : Group} {leaders : List Candidate}
    {candidate : Candidate} (completes : core.Completes leaders whole)
    (later : core.first < candidate.span.first) :
    (core.absorb candidate).Completes leaders (whole.absorb candidate) where
  members_eq := by
    rw [members_absorb, members_absorb, completes.members_eq, List.append_assoc]
  first_eq := completes.first_eq
  last_eq := by rw [last_absorb, last_absorb, completes.last_eq]
  leaders_start := completes.leaders_start
  followers_start := by
    intro follower found
    rcases List.mem_append.mp found with old | new
    · exact completes.followers_start follower old
    · rw [List.mem_singleton.mp new]
      exact later

/-- Past the equal starts, the core and the whole take in the same. -/
theorem takes_eq_of_completes {core whole : Group} {leaders : List Candidate}
    {candidate : Candidate} (completes : core.Completes leaders whole)
    (later : core.first < candidate.span.first) :
    core.takes true candidate = whole.takes false candidate := by
  have different : candidate.span.first ≠ whole.first := by
    rw [← completes.first_eq]
    omega
  simp only [takes, different, and_false, Bool.false_eq_true, if_false,
    completes.first_eq, completes.last_eq]

/-- The groups are what the whole comes apart into when equal starts are kept
apart: one group for each of its leaders, and the core. -/
def ComesApart (whole : Group) (groups : List Group) : Prop :=
  ∃ leaders core, core.Completes leaders whole ∧
    groups = leaders.map ofCandidate ++ [core]

/-- Run side by side, the fold that keeps equal starts apart closes what the
groups of the other fold come apart into. -/
theorem exists_parts_collect {core whole : Group} {leaders : List Candidate}
    {candidates : List Candidate} (completes : core.Completes leaders whole)
    (sorted : (core.members ++ candidates).Pairwise fun candidate other =>
      candidate.notAfter other = true) :
    ∃ parts, List.Forall₂ ComesApart (collect false whole candidates) parts ∧
      leaders.map ofCandidate ++ collect true core candidates =
        parts.flatten := by
  induction candidates generalizing core whole leaders with
  | nil =>
      refine ⟨[leaders.map ofCandidate ++ [core]], ?_, by simp [collect]⟩
      exact List.Forall₂.cons ⟨leaders, core, completes, rfl⟩ List.Forall₂.nil
  | cons candidate rest ih =>
      have after : ∀ member ∈ core.members, member.notAfter candidate = true :=
        fun member found => (List.pairwise_append.mp sorted).2.2 member found
          candidate List.mem_cons_self
      have opened : ((ofCandidate candidate).members ++ rest).Pairwise
          fun candidate other => candidate.notAfter other = true :=
        (List.pairwise_append.mp sorted).2.1
      have head_after := after core.head List.mem_cons_self
      rcases eq_or_lt_of_le (Candidate.first_le_of_notAfter head_after) with
        same | later
      · -- An equal start: the whole takes it in, while the core is closed.
        obtain ⟨taken, closed, alone, opens⟩ :=
          step_of_same_first completes same.symm after
        obtain ⟨parts, fits, groups_eq⟩ := ih opens opened
        refine ⟨parts, ?_, ?_⟩
        · rw [collect, if_pos taken]
          exact fits
        · rw [collect, if_neg closed, ← groups_eq, List.map_append,
            List.append_assoc, List.map_singleton, ← alone]
          rfl
      · have alike := takes_eq_of_completes completes later
        by_cases taken : whole.takes false candidate = true
        · rw [collect, collect, alike, if_pos taken, if_pos taken]
          refine ih (completes_absorb completes later) ?_
          rw [members_absorb, List.append_assoc]
          exact sorted
        · obtain ⟨parts, fits, groups_eq⟩ :=
            ih (completes_ofCandidate candidate) opened
          rw [collect, collect, alike, if_neg taken, if_neg taken]
          refine ⟨(leaders.map ofCandidate ++ [core]) :: parts,
            List.Forall₂.cons ⟨leaders, core, completes, rfl⟩ fits, ?_⟩
          rw [List.flatten_cons, ← groups_eq, List.append_assoc]
          rfl

end Group

/-- Keeping equal starts apart takes every group of the other merge apart. -/
theorem exists_parts_groupsOf (candidates : List Candidate) :
    ∃ parts, List.Forall₂ Group.ComesApart (groupsOf false candidates) parts ∧
      groupsOf true candidates = parts.flatten := by
  have sorted := List.pairwise_mergeSort Candidate.notAfter_trans
    Candidate.notAfter_total candidates
  unfold groupsOf
  split
  · exact ⟨[], List.Forall₂.nil, rfl⟩
  · rename_i candidate rest sortedEq
    rw [sortedEq] at sorted
    exact Group.exists_parts_collect (Group.completes_ofCandidate candidate)
      sorted

namespace Segment

/-- The segment holds the candidate and nothing else. -/
structure HoldsOnly (segment : Segment) (candidate : Candidate) : Prop where
  span_eq : segment.toSpan = candidate.span
  labels_eq : segment.labels = [candidate.label]

theorem holdsOnly_of_close {candidate : Candidate} {segment : Segment}
    (closed : (Group.ofCandidate candidate).close = .ok segment) :
    segment.HoldsOnly candidate := by
  obtain ⟨first_eq, last_eq, labels_eq⟩ := fields_of_ofLabels? closed
  constructor
  · obtain ⟨⟨first, last, ordered⟩, labels, carets_inside⟩ := segment
    obtain ⟨⟨_, _, _⟩, label, index⟩ := candidate
    cases first_eq
    cases last_eq
    rfl
  · rw [labels_eq]
    simp [Group.orderedLabels, Group.placed, List.eraseDups_cons]

end Segment

/-- How a component of overlap is divided: the leaders, which start where it
starts, stand alone, and the longest candidate with that start is gathered with
the followers, which start later, in a segment that spans the component. -/
structure Divides (leaders : List Candidate) (longest : Candidate)
    (followers : List Candidate) (singles : List Segment) (closing : Segment) :
    Prop where
  leaders_start : ∀ leader ∈ leaders, leader.span.first = longest.span.first
  followers_start : ∀ follower ∈ followers,
    longest.span.first < follower.span.first
  alone : List.Forall₂ (fun leader segment => segment.HoldsOnly leader)
    leaders singles
  gathers : closing.Gathers (longest :: followers)
  spans : ∀ position, closing.contains position = true ↔
    ∃ candidate ∈ leaders ++ longest :: followers,
      candidate.span.contains position = true

/-- The segments are those into which the component is divided. -/
def DividesInto (component : List Candidate) (segments : List Segment) : Prop :=
  ∃ leaders longest followers singles closing,
    component = leaders ++ longest :: followers ∧
      segments = singles ++ [closing] ∧
      Divides leaders longest followers singles closing

theorem dividesInto_of_comesApart {whole : Group} {groups : List Group}
    {segments : List Segment} (apart : whole.ComesApart groups)
    (cohesive : whole.Cohesive) (all_cohesive : ∀ group ∈ groups, group.Cohesive)
    (closed : List.Forall₂ (fun group segment => group.close = .ok segment)
      groups segments) : DividesInto whole.members segments := by
  obtain ⟨leaders, core, completes, rfl⟩ := apart
  obtain ⟨singles, last, rfl, closed_leaders, closed_last⟩ :=
    exists_append_of_forall₂ closed
  rw [List.forall₂_map_left_iff] at closed_leaders
  obtain ⟨closing, _, closed_core, nothing, rfl⟩ :=
    List.forall₂_cons_left_iff.mp closed_last
  cases nothing
  refine ⟨leaders, core.head, core.rest, singles, closing, completes.members_eq,
    rfl, ?_⟩
  have core_cohesive : core.Cohesive := all_cohesive core (by simp)
  obtain ⟨first_eq, last_eq, -⟩ := Segment.fields_of_ofLabels? closed_core
  constructor
  · exact completes.leaders_start
  · exact completes.followers_start
  · exact closed_leaders.imp fun leader segment => Segment.holdsOnly_of_close
  · exact Group.gathers_of_close core_cohesive closed_core
  · intro position
    rw [Span.contains_iff, first_eq, last_eq, completes.first_eq,
      completes.last_eq, cohesive.between_iff, completes.members_eq]
    rfl

/-- Two segments in order.  If they overlap, they start together and the former
holds a single label. -/
structure Segment.StandsBefore (segment next : Segment) : Prop where
  ordered : segment.notAfter next = true
  overlapping : segment.overlaps next.toSpan = true →
    segment.first = next.first ∧ segment.labels.length = 1

theorem Segment.standsBefore_of_last_lt_first {segment next : Segment}
    (before : segment.last < next.first) : segment.StandsBefore next := by
  refine ⟨notAfter_of_last_lt_first before, fun overlap => ?_⟩
  rw [Span.overlaps_iff] at overlap
  omega

theorem Segment.HoldsOnly.standsBefore {segment next : Segment}
    {candidate : Candidate} (holds : segment.HoldsOnly candidate)
    (first : candidate.span.first = next.first)
    (last : candidate.span.last ≤ next.last) : segment.StandsBefore next := by
  constructor
  · simp only [Segment.notAfter, Span.notAfter, Span.precedes, holds.span_eq,
      Bool.not_eq_true', decide_eq_false_iff_not]
    omega
  · intro _
    rw [holds.span_eq, holds.labels_eq]
    exact ⟨first, rfl⟩

namespace Divides

variable {leaders followers : List Candidate} {longest : Candidate}
variable {singles : List Segment} {closing : Segment}
variable (divides : Divides leaders longest followers singles closing)

include divides

theorem closing_first : closing.first = longest.span.first := by
  have covers := divides.gathers.covers (List.mem_cons_self (a := longest))
  obtain ⟨member, found, contained⟩ := (divides.gathers.covered closing.first).mp
    ((Span.contains_iff _ _).mpr ⟨le_refl _, closing.ordered⟩)
  rw [Span.contains_iff] at contained
  rcases List.mem_cons.mp found with rfl | follower
  · omega
  · have later := divides.followers_start member follower
    omega

/-- The segments cover only positions of their component. -/
theorem exists_candidate_of_contains {segment : Segment}
    (member : segment ∈ singles ++ [closing]) {position : Int}
    (contained : segment.contains position = true) :
    ∃ candidate ∈ leaders ++ longest :: followers,
      candidate.span.contains position = true := by
  rcases List.mem_append.mp member with single | last
  · obtain ⟨leader, found, holds⟩ :=
      exists_source_of_forall₂ divides.alone single
    rw [holds.span_eq] at contained
    exact ⟨leader, List.mem_append_left _ found, contained⟩
  · rw [List.mem_singleton.mp last] at contained
    exact (divides.spans position).mp contained

/-- The segments of a sorted component stand in order and overlap from a common
start only. -/
theorem pairwise_standsBefore
    (sorted : (leaders ++ longest :: followers).Pairwise
      fun candidate other => candidate.notAfter other = true) :
    (singles ++ [closing]).Pairwise Segment.StandsBefore := by
  have together : leaders.Pairwise fun leader next =>
      leader.span.first = next.span.first ∧
        leader.span.last ≤ next.span.last := by
    refine (List.pairwise_append.mp sorted).1.imp_of_mem ?_
    intro leader next found next_found ordered
    have first := divides.leaders_start leader found
    have next_first := divides.leaders_start next next_found
    rw [Candidate.notAfter_iff] at ordered
    omega
  refine List.pairwise_append.mpr ⟨?_, List.pairwise_singleton _ _, ?_⟩
  · refine pairwise_of_forall₂ divides.alone ?_ together
    intro leader other segment next holds next_holds ordered
    apply holds.standsBefore
    · rw [next_holds.span_eq]
      exact ordered.1
    · rw [next_holds.span_eq]
      exact ordered.2
  · intro segment member last found
    obtain ⟨leader, leader_found, holds⟩ :=
      exists_source_of_forall₂ divides.alone member
    have reached := (divides.spans leader.span.last).mpr
      ⟨leader, List.mem_append_left _ leader_found,
        (Span.contains_iff _ _).mpr ⟨leader.span.ordered, le_refl _⟩⟩
    rw [Span.contains_iff] at reached
    rw [List.mem_singleton.mp found]
    apply holds.standsBefore
    · rw [divides.closing_first]
      exact divides.leaders_start leader leader_found
    · exact reached.2

end Divides

/-- The lists are the components of overlap, from left to right: they share out
the sorted candidates, hold together what is linked, and stand apart. -/
structure AreComponents (candidates : List Candidate)
    (components : List (List Candidate)) : Prop where
  flatten_eq : components.flatten = candidates.mergeSort Candidate.notAfter
  together_iff : ∀ candidate ∈ candidates, ∀ other ∈ candidates,
    (∃ component ∈ components, candidate ∈ component ∧ other ∈ component) ↔
      Candidate.Linked candidates candidate other
  apart : components.Pairwise fun earlier later =>
    ∀ candidate ∈ earlier, ∀ other ∈ later,
      candidate.span.last < other.span.first

theorem areComponents_members (candidates : List Candidate) :
    AreComponents candidates
      ((groupsOf false candidates).map Group.members) where
  flatten_eq := by
    rw [← List.flatMap_def, flatMap_members_groupsOf]
  together_iff := by
    intro candidate found other _
    rw [← same_group_iff_linked found]
    simp only [List.mem_map, exists_exists_and_eq_and]
  apart := by
    refine List.pairwise_map.mpr
      ((pairwise_groupsOf_false candidates).imp_of_mem ?_)
    intro earlier later earlier_mem later_mem before candidate inside other beside
    have ends := (cohesive_of_mem_groupsOf earlier_mem).ends candidate inside
    have starts := (cohesive_of_mem_groupsOf later_mem).starts other beside
    omega

/-- The segments of components that stand apart overlap only within their
component. -/
theorem pairwise_flatten_of_dividesInto {components : List (List Candidate)}
    {parts : List (List Segment)}
    (divided : List.Forall₂ DividesInto components parts)
    (sorted : components.flatten.Pairwise fun candidate other =>
      candidate.notAfter other = true)
    (apart : components.Pairwise fun earlier later =>
      ∀ candidate ∈ earlier, ∀ other ∈ later,
        candidate.span.last < other.span.first) :
    parts.flatten.Pairwise Segment.StandsBefore := by
  refine List.pairwise_flatten.mpr ⟨?_, ?_⟩
  · intro part member
    obtain ⟨component, found, leaders, longest, followers, singles, closing, rfl,
      rfl, divides⟩ := exists_source_of_forall₂ divided member
    exact divides.pairwise_standsBefore
      ((List.pairwise_flatten.mp sorted).1 _ found)
  · refine pairwise_of_forall₂ divided ?_ apart
    intro component later part laterPart
    rintro ⟨leaders, longest, followers, singles, closing, rfl, rfl, divides⟩
      ⟨leaders', longest', followers', singles', closing', rfl, rfl, divides'⟩
      before segment member next next_member
    obtain ⟨candidate, found, reaches⟩ := divides.exists_candidate_of_contains
      member ((Span.contains_iff _ _).mpr ⟨segment.ordered, le_refl _⟩)
    obtain ⟨other, other_found, starts⟩ := divides'.exists_candidate_of_contains
      next_member ((Span.contains_iff _ _).mpr ⟨le_refl _, next.ordered⟩)
    have gap := before candidate found other other_found
    rw [Span.contains_iff] at reaches starts
    apply Segment.standsBefore_of_last_lt_first
    omega

/-- Merging with equal starts kept apart always succeeds on candidates with
carets under their own spans.  It divides every component of overlap, in order;
two of its segments overlap only if they start together, and then the former
holds a single label. -/
theorem mergeOverlaps_divides (candidates : List Candidate)
    (inside : ∀ candidate ∈ candidates, candidate.CaretInside) :
    ∃ components parts, AreComponents candidates components ∧
      List.Forall₂ DividesInto components parts ∧
      mergeOverlaps true candidates = .ok parts.flatten ∧
      parts.flatten.Pairwise Segment.StandsBefore := by
  obtain ⟨groups, comes_apart, groups_eq⟩ := exists_parts_groupsOf candidates
  obtain ⟨closed, closing⟩ : ∃ closed, List.Forall₂
      (fun group segment => group.close = .ok segment)
        (groupsOf true candidates) closed := exists_closed_groups inside
  rw [groups_eq] at closing
  obtain ⟨parts, rfl, closing_parts⟩ := exists_parts_of_forall₂_flatten closing
  have whole_cohesive : ∀ whole ∈ groupsOf false candidates, whole.Cohesive :=
    fun _ => cohesive_of_mem_groupsOf
  have part_cohesive : ∀ part ∈ groups, ∀ group ∈ part, group.Cohesive := by
    intro part found group member
    have in_groups : group ∈ groupsOf true candidates := by
      rw [groups_eq]
      exact List.mem_flatten.mpr ⟨part, found, member⟩
    exact cohesive_of_mem_groupsOf in_groups
  have components := areComponents_members candidates
  have divided : List.Forall₂ DividesInto
      ((groupsOf false candidates).map Group.members) parts := by
    rw [List.forall₂_map_left_iff]
    refine forall₂_compose
      ((List.forall₂_and_left _ _).mpr ⟨whole_cohesive, comes_apart⟩)
      ((List.forall₂_and_left _ _).mpr ⟨part_cohesive, closing_parts⟩) ?_
    rintro whole part segments ⟨cohesive, apart⟩ ⟨all_cohesive, closed⟩
    exact dividesInto_of_comesApart apart cohesive all_cohesive closed
  have ordered : parts.flatten.Pairwise Segment.StandsBefore := by
    refine pairwise_flatten_of_dividesInto divided ?_ components.apart
    rw [components.flatten_eq]
    exact List.pairwise_mergeSort Candidate.notAfter_trans
      Candidate.notAfter_total candidates
  refine ⟨_, parts, components, divided, ?_, ordered⟩
  rw [mergeOverlaps_eq_ok_iff, groups_eq]
  exact ⟨parts.flatten, closing,
    (List.mergeSort_of_pairwise (ordered.imp Segment.StandsBefore.ordered)).symm⟩

/-- Of two candidates with one start, the shorter one stands alone, although the
longer one links it to a third. -/
theorem mergeOverlaps_divides_bridged :
    let shorter := Candidate.bare 2 3 (by decide)
    let longer := Candidate.bare 2 5 (by decide)
    let bridged := Candidate.bare 5 8 (by decide)
    let apart := Candidate.bare 9 9 (by decide)
    let candidates := [bridged, longer, apart, shorter]
    (∀ candidate ∈ candidates, candidate.CaretInside) ∧
      ∃ components parts, AreComponents candidates components ∧
        List.Forall₂ DividesInto components parts ∧
        mergeOverlaps true candidates = .ok parts.flatten ∧
        (∃ component ∈ components, shorter ∈ component ∧ bridged ∈ component) ∧
        parts.flatten.Pairwise Segment.StandsBefore := by
  intro shorter longer bridged apart candidates
  have inside : ∀ candidate ∈ candidates, candidate.CaretInside := by
    simp [candidates, shorter, longer, bridged, apart, Candidate.bare,
      Candidate.CaretInside]
  obtain ⟨components, parts, are_components, divided, merged, ordered⟩ :=
    mergeOverlaps_divides candidates inside
  have first_step : Candidate.Touches candidates shorter longer :=
    ⟨by simp [candidates], by simp [candidates], by decide⟩
  have second_step : Candidate.Touches candidates longer bridged :=
    ⟨by simp [candidates], by simp [candidates], by decide⟩
  have together := (are_components.together_iff shorter first_step.1 bridged
    second_step.2.1).mpr
      ((Relation.ReflTransGen.single first_step).tail second_step)
  exact ⟨inside, components, parts, are_components, divided, merged, together,
    ordered⟩

end CaretReport
