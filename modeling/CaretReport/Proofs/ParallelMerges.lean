import CaretReport.Proofs.SegmentGroups

/-!
# Merges side by side

Two lists of candidates may differ by a common shift of their spans, or by what
their labels say.  Merging looks at neither: it compares spans with one another,
and a shift of all spans changes no comparison.  So both lists are sorted alike,
grouped alike, and merged into segments that stand side by side.
-/

namespace CaretReport

/-- Lists that are related member by member stay so when they are sorted by
orders that agree on related members. -/
theorem forall₂_mergeSort {Source Target : Type}
    {related : Source → Target → Prop} {before : Source → Source → Bool}
    {after : Target → Target → Bool}
    (agree : ∀ source target other next, related source target →
      related other next → before source other = after target next)
    {sources : List Source} {targets : List Target}
    (fits : List.Forall₂ related sources targets) :
    List.Forall₂ related (sources.mergeSort before)
      (targets.mergeSort after) := by
  let pairs := sources.zip targets
  have length_eq := fits.length_eq
  have sources_eq : pairs.map Prod.fst = sources :=
    List.map_fst_zip (Nat.le_of_eq length_eq)
  have targets_eq : pairs.map Prod.snd = targets :=
    List.map_snd_zip (Nat.le_of_eq length_eq.symm)
  have within : ∀ pair ∈ pairs, related pair.1 pair.2 :=
    fun _ member => List.forall₂_zip fits member
  have sorted_targets : (pairs.mergeSort fun pair next =>
      before pair.1 next.1).map Prod.snd = targets.mergeSort after := by
    rw [← targets_eq]
    apply List.map_mergeSort
    intro pair member next next_mem
    exact agree _ _ _ _ (within pair member) (within next next_mem)
  have sorted_sources : (pairs.mergeSort fun pair next =>
      before pair.1 next.1).map Prod.fst = sources.mergeSort before := by
    rw [← sources_eq]
    apply List.map_mergeSort
    intro pair _ next _
    rfl
  rw [← sorted_sources, ← sorted_targets, List.forall₂_map_left_iff,
    List.forall₂_map_right_iff, List.forall₂_same]
  intro pair member
  exact within pair (List.mem_mergeSort.mp member)

/-- The other candidate stands a number of positions further right. -/
structure Candidate.Moves (shift : Int) (candidate other : Candidate) :
    Prop where
  first : other.span.first = candidate.span.first + shift
  last : other.span.last = candidate.span.last + shift

/-- A common shift keeps the order of candidates with the same indices. -/
theorem Candidate.Moves.notAfter_eq {shift : Int}
    {candidate moved other next : Candidate}
    (here : candidate.Moves shift moved) (there : other.Moves shift next)
    (index : moved.index = candidate.index)
    (other_index : next.index = other.index) :
    candidate.notAfter other = moved.notAfter next := by
  rw [Bool.eq_iff_iff, notAfter_iff, notAfter_iff, here.first, here.last,
    there.first, there.last, index, other_index]
  omega

/-- The two groups took in related candidates, in the same order. -/
def Group.Beside (related : Candidate → Candidate → Prop)
    (group other : Group) : Prop :=
  List.Forall₂ related group.members other.members

section Grouping

variable {shift : Int} {related : Candidate → Candidate → Prop}
variable (moves : ∀ candidate other, related candidate other →
  candidate.Moves shift other)

namespace Group

variable {group other : Group}

theorem beside_absorb {candidate next : Candidate}
    (beside : group.Beside related other) (relates : related candidate next) :
    (group.absorb candidate).Beside related (other.absorb next) :=
  List.rel_append beside (.cons relates .nil)

include moves

theorem Beside.first_eq (beside : group.Beside related other) :
    other.first = group.first + shift := by
  obtain ⟨relates, _⟩ := List.forall₂_cons.mp beside
  exact (moves _ _ relates).first

theorem Beside.last_eq (beside : group.Beside related other) :
    other.last = group.last + shift := by
  have farthest {members others : List Candidate}
      (fits : List.Forall₂ related members others) (start : Int) :
      (others.map fun candidate => candidate.span.last).foldl max
          (start + shift) =
        (members.map fun candidate => candidate.span.last).foldl max start +
          shift := by
    induction fits generalizing start with
    | nil => rfl
    | @cons candidate next _ _ relates _ ih =>
        have moved (reached : Int) : max (reached + shift) next.span.last =
            max reached candidate.span.last + shift := by
          rw [(moves _ _ relates).last]
          omega
        rw [List.map_cons, List.map_cons, List.foldl_cons, List.foldl_cons,
          moved]
        exact ih _
  obtain ⟨relates, rest⟩ := List.forall₂_cons.mp beside
  rw [last, (moves _ _ relates).last]
  exact farthest rest _

/-- Related candidates stand equally far from the starts of their groups. -/
theorem Beside.distance_eq (beside : group.Beside related other)
    {candidate next : Candidate} (relates : related candidate next) :
    next.span.first - other.first = candidate.span.first - group.first := by
  rw [(moves candidate next relates).first, beside.first_eq moves]
  omega

/-- A candidate is taken into one group exactly when the related one is taken
into the other. -/
theorem Beside.takes_eq (beside : group.Beside related other)
    {candidate next : Candidate} (relates : related candidate next)
    (splitEqual : Bool) :
    other.takes splitEqual next = group.takes splitEqual candidate := by
  have first_eq := beside.first_eq moves
  have last_eq := beside.last_eq moves
  have move := moves candidate next relates
  simp only [takes, first_eq, last_eq, move.first, move.last,
    Int.add_left_inj, Int.add_le_add_iff_right, Int.add_lt_add_iff_right]

theorem forall₂_collect (splitEqual : Bool) {candidates others : List Candidate}
    (fits : List.Forall₂ related candidates others)
    (beside : group.Beside related other) :
    List.Forall₂ (Group.Beside related) (collect splitEqual group candidates)
      (collect splitEqual other others) := by
  induction fits generalizing group other with
  | nil => exact .cons beside .nil
  | @cons candidate next _ _ relates _ ih =>
      rw [collect, collect, beside.takes_eq moves relates]
      split
      · exact ih (beside_absorb beside relates)
      · have opened : (ofCandidate candidate).Beside related
            (ofCandidate next) := .cons relates .nil
        exact .cons beside (ih opened)

end Group

include moves in
/-- Candidates that are related after sorting are grouped alike. -/
theorem forall₂_groupsOf (splitEqual : Bool) {candidates others : List Candidate}
    (sorted : List.Forall₂ related (candidates.mergeSort Candidate.notAfter)
      (others.mergeSort Candidate.notAfter)) :
    List.Forall₂ (Group.Beside related) (groupsOf splitEqual candidates)
      (groupsOf splitEqual others) := by
  unfold groupsOf
  generalize candidates.mergeSort Candidate.notAfter = before at sorted ⊢
  generalize others.mergeSort Candidate.notAfter = after at sorted ⊢
  cases sorted with
  | nil => exact .nil
  | cons relates rest =>
      exact Group.forall₂_collect moves splitEqual rest (.cons relates .nil)

end Grouping

/-- The other segment stands a number of positions further right, and its labels
are alike. -/
structure Segment.Beside (shift : Int) (alike : PlacedLabel → PlacedLabel → Prop)
    (segment other : Segment) : Prop where
  first : other.first = segment.first + shift
  last : other.last = segment.last + shift
  labels : List.Forall₂ alike segment.labels other.labels

section Merging

variable {shift : Int} {alike : PlacedLabel → PlacedLabel → Prop}
variable (carets : ∀ label other, alike label other →
  other.position = label.position)

include carets

/-- Groups side by side with labels that are alike close alike. -/
theorem Group.exists_close_beside {group other : Group}
    (first : other.first = group.first + shift)
    (last : other.last = group.last + shift)
    (labels : List.Forall₂ alike group.orderedLabels other.orderedLabels)
    {segment : Segment} (closed : group.close = .ok segment) :
    ∃ next, other.close = .ok next ∧ segment.Beside shift alike next := by
  obtain ⟨first_eq, last_eq, labels_eq⟩ := Segment.fields_of_ofLabels? closed
  have ordered := segment.ordered
  obtain ⟨next, made⟩ : ∃ next, other.close = .ok next := by
    apply Segment.exists_ofLabels?_eq_ok
    · omega
    · intro label member
      obtain ⟨source, found, like⟩ := exists_source_of_forall₂ labels member
      have inside := segment.carets_inside source (labels_eq ▸ found)
      have caret := carets source label like
      omega
  obtain ⟨next_first, next_last, next_labels⟩ :=
    Segment.fields_of_ofLabels? made
  refine ⟨next, made, ?_, ?_, ?_⟩
  · rw [next_first, first, first_eq]
  · rw [next_last, last, last_eq]
  · rw [next_labels, labels_eq]
    exact labels

variable {related : Candidate → Candidate → Prop}
variable (moves : ∀ candidate other, related candidate other →
  candidate.Moves shift other)

include moves in
/-- Candidates that are related after sorting, and whose groups keep labels that
are alike, merge into segments side by side. -/
theorem exists_merge_beside {splitEqual : Bool}
    {candidates others : List Candidate}
    (sorted : List.Forall₂ related (candidates.mergeSort Candidate.notAfter)
      (others.mergeSort Candidate.notAfter))
    (labels : ∀ group ∈ groupsOf splitEqual candidates, ∀ other : Group,
      group.Beside related other →
        List.Forall₂ alike group.orderedLabels other.orderedLabels)
    {segments : List Segment}
    (merged : mergeOverlaps splitEqual candidates = .ok segments) :
    ∃ moved, mergeOverlaps splitEqual others = .ok moved ∧
      List.Forall₂ (Segment.Beside shift alike) segments moved := by
  obtain ⟨closed, closing, rfl⟩ := mergeOverlaps_eq_ok_iff.mp merged
  have groups := forall₂_groupsOf moves splitEqual sorted
  obtain ⟨next, next_closing, beside⟩ : ∃ next,
      List.Forall₂ (fun group segment => group.close = .ok segment)
        (groupsOf splitEqual others) next ∧
      List.Forall₂ (Segment.Beside shift alike) closed next := by
    apply exists_forall₂_square closing groups
    intro group segment other member made besides
    exact Group.exists_close_beside carets (besides.first_eq moves)
      (besides.last_eq moves) (labels group member other besides) made
  refine ⟨_, mergeOverlaps_eq_ok_iff.mpr ⟨next, next_closing, rfl⟩, ?_⟩
  refine forall₂_mergeSort ?_ beside
  intro segment other source target here there
  simp only [Segment.notAfter, Span.notAfter, Span.precedes, here.first,
    here.last, there.first, there.last, Int.add_left_inj,
    Int.add_lt_add_iff_right]

end Merging

/-- The other candidate carries the same label a number of positions further
right. -/
structure Candidate.Shifts (shift : Int) (candidate other : Candidate) :
    Prop extends Candidate.Moves shift candidate other where
  label : other.label = candidate.label

/-- The other segment holds the same labels a number of positions further
right. -/
structure Segment.Shifts (shift : Int) (segment other : Segment) : Prop where
  first : other.first = segment.first + shift
  last : other.last = segment.last + shift
  labels : other.labels = segment.labels

/-- A segment that is not shifted is the same. -/
theorem Segment.Shifts.eq_of_zero {segment other : Segment}
    (shifts : segment.Shifts 0 other) : other = segment := by
  obtain ⟨⟨first, last, _⟩, labels, _⟩ := segment
  obtain ⟨⟨other_first, other_last, _⟩, other_labels, _⟩ := other
  have same_first : other_first = first :=
    shifts.first.trans (Int.add_zero first)
  have same_last : other_last = last := shifts.last.trans (Int.add_zero last)
  have same_labels : other_labels = labels := shifts.labels
  subst same_first same_last same_labels
  rfl

/-- Groups that take in the same labels, all shifted alike, hold the same labels:
these count from the start of the group. -/
theorem Group.orderedLabels_eq {shift : Int} {group other : Group}
    (beside : group.Beside (Candidate.Shifts shift) other) :
    other.orderedLabels = group.orderedLabels := by
  have labels_eq : group.members.map group.placed =
      other.members.map other.placed := by
    apply map_eq_map_of_forall₂
    refine beside.imp fun candidate next shifts => ?_
    rw [placed, placed, shifts.label,
      beside.distance_eq (fun _ _ shifts => shifts.toMoves) shifts]
  rw [orderedLabels, orderedLabels, labels_eq]

/-- A shift of all candidates shifts the segments of their merge. -/
theorem exists_merge_shifts {shift : Int} {splitEqual : Bool}
    {candidates others : List Candidate}
    (sorted : List.Forall₂ (Candidate.Shifts shift)
      (candidates.mergeSort Candidate.notAfter)
      (others.mergeSort Candidate.notAfter)) {segments : List Segment}
    (merged : mergeOverlaps splitEqual candidates = .ok segments) :
    ∃ moved, mergeOverlaps splitEqual others = .ok moved ∧
      List.Forall₂ (Segment.Shifts shift) segments moved := by
  have labels : ∀ group ∈ groupsOf splitEqual candidates, ∀ other : Group,
      group.Beside (Candidate.Shifts shift) other →
        List.Forall₂ (fun label next => next = label) group.orderedLabels
          other.orderedLabels := by
    intro group _ other beside
    rw [Group.orderedLabels_eq beside, List.forall₂_same]
    exact fun _ _ => rfl
  obtain ⟨moved, made, besides⟩ := exists_merge_beside
    (fun _ _ same => congrArg PlacedLabel.position same)
    (fun _ _ shifts => shifts.toMoves) sorted labels merged
  refine ⟨moved, made, besides.imp fun segment other beside => ?_⟩
  have same := beside.labels.flip
  rw [List.forall₂_eq_eq_eq] at same
  exact ⟨beside.first, beside.last, same⟩

end CaretReport
