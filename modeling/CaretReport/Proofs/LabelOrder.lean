import CaretReport.Proofs.SegmentLabels

/-!
# The order of the labels of a segment

The labels of a segment are moved to its start, sorted by a key other than the
one that grouped them, and rid of duplicates.  This file proves that no label is
lost on the way and none comes in twice: the labels of a segment show some of
its candidates, in an order that the candidates decide where the labels do not,
and different candidates keep different labels.
-/

namespace CaretReport

section Lists

variable {Item : Type}

/-- Items that are sorted anew keep the order they had wherever the new order
does not tell them apart. -/
theorem pairwise_mergeSort_stable {before : Item → Item → Bool}
    {earlier : Item → Item → Prop}
    (trans : ∀ item other third, before item other = true →
      before other third = true → before item third = true)
    (total : ∀ item other, (before item other || before other item) = true)
    {items : List Item} (sorted : items.Pairwise earlier) :
    (items.mergeSort before).Pairwise fun item other =>
      before other item = true → earlier item other := by
  induction items with
  | nil => simp
  | cons item rest ih =>
      obtain ⟨first, rest_sorted⟩ := List.pairwise_cons.mp sorted
      -- The head is put in front of all items that it may stand before.
      obtain ⟨left, right, sorted_eq, rest_eq, left_before⟩ :=
        List.mergeSort_cons trans total item rest
      have stable := ih rest_sorted
      rw [rest_eq, List.pairwise_append] at stable
      obtain ⟨left_stable, right_stable, across⟩ := stable
      have first_right : ∀ other ∈ right, earlier item other := by
        intro other member
        have found : other ∈ rest.mergeSort before := by
          rw [rest_eq]
          exact List.mem_append_right left member
        exact first other (List.mem_mergeSort.mp found)
      rw [sorted_eq, List.pairwise_append, List.pairwise_cons]
      refine ⟨left_stable, ⟨fun other member _ => first_right other member,
        right_stable⟩, ?_⟩
      intro other member next next_mem
      rcases List.mem_cons.mp next_mem with rfl | behind
      · intro same
        have apart := left_before other member
        rw [same] at apart
        cases apart
      · exact across other member next behind

/-- Sorting keeps the order of the items of one key. -/
theorem filter_mergeSort {Key : Type} [DecidableEq Key] {key : Item → Key}
    {before : Item → Item → Bool}
    (trans : ∀ item other third, before item other = true →
      before other third = true → before item third = true)
    (total : ∀ item other, (before item other || before other item) = true)
    (alike : ∀ item other, key item = key other → before item other = true)
    (items : List Item) (value : Key) :
    (items.mergeSort before).filter (fun item => decide (key item = value)) =
      items.filter fun item => decide (key item = value) := by
  have sorted : (items.filter fun item => decide (key item = value)).Pairwise
      fun item other => before item other = true := by
    apply List.pairwise_of_forall_mem_list
    intro item member other other_mem
    have here := of_decide_eq_true (List.mem_filter.mp member).2
    have there := of_decide_eq_true (List.mem_filter.mp other_mem).2
    exact alike item other (here.trans there.symm)
  have within := (List.sublist_mergeSort trans total sorted
    List.filter_sublist).filter fun item => decide (key item = value)
  rw [List.filter_filter] at within
  simp only [Bool.and_self] at within
  have same_length := ((List.mergeSort_perm items before).filter fun item =>
    decide (key item = value)).length_eq
  exact (within.eq_of_length same_length.symm).symm

theorem eraseDups_sublist [BEq Item] (items : List Item) :
    items.eraseDups.Sublist items := by
  match items with
  | [] => simp
  | item :: rest =>
      rw [List.eraseDups_cons]
      exact ((eraseDups_sublist _).trans List.filter_sublist).cons_cons item
termination_by items.length
decreasing_by exact Nat.lt_succ_of_le (List.length_filter_le _ _)

variable [BEq Item] [LawfulBEq Item]

theorem nodup_eraseDups (items : List Item) : items.eraseDups.Nodup := by
  match items with
  | [] => simp
  | item :: rest =>
      rw [List.eraseDups_cons, List.nodup_cons]
      refine ⟨?_, nodup_eraseDups _⟩
      simp [List.mem_eraseDups]
termination_by items.length
decreasing_by exact Nat.lt_succ_of_le (List.length_filter_le _ _)

theorem eraseDups_eq_self {items : List Item} (distinct : items.Nodup) :
    items.eraseDups = items := by
  induction items with
  | nil => rfl
  | cons item rest ih =>
      obtain ⟨outside, rest_distinct⟩ := List.nodup_cons.mp distinct
      have kept : rest.filter (fun other => !other == item) = rest := by
        rw [List.filter_eq_self]
        intro other member
        have different : other ≠ item := fun same => outside (same ▸ member)
        simp [different]
      rw [List.eraseDups_cons, kept, ih rest_distinct]

end Lists

namespace PlacedLabel

theorem notAfter_iff (label other : PlacedLabel) :
    label.notAfter other = true ↔
      label.position < other.position ∨
        label.position = other.position ∧
          (label.offset < other.offset ∨
            label.offset = other.offset ∧ label.length ≤ other.length) :=
  decide_eq_true_iff

theorem notAfter_trans (first second third : PlacedLabel)
    (before : first.notAfter second = true)
    (after : second.notAfter third = true) : first.notAfter third = true := by
  rw [notAfter_iff] at before after ⊢
  omega

theorem notAfter_total (label other : PlacedLabel) :
    (label.notAfter other || other.notAfter label) = true := by
  rw [Bool.or_eq_true, notAfter_iff, notAfter_iff]
  omega

end PlacedLabel

/-- A segment that shows two candidates as one label shows one span and one
label. -/
theorem Segment.Shows.same_source {segment : Segment}
    {candidate other : Candidate} {label : PlacedLabel}
    (shows : segment.Shows candidate label)
    (other_shows : segment.Shows other label)
    (offset : candidate.label.offset = other.label.offset) :
    candidate.span = other.span ∧ candidate.label = other.label := by
  have first : candidate.span.first = other.span.first := by
    rw [← shows.starts, other_shows.starts]
  have last : candidate.span.last = other.span.last := by
    rw [← shows.stops, other_shows.stops]
  have position : candidate.label.position = other.label.position := by
    have caret := shows.caret
    rw [other_shows.caret] at caret
    omega
  have content := shows.content.symm.trans other_shows.content
  obtain ⟨⟨_, _, _⟩, ⟨_, _, _, _, _, _, _⟩, _⟩ := candidate
  obtain ⟨⟨_, _, _⟩, ⟨_, _, _, _, _, _, _⟩, _⟩ := other
  simp_all

/-- The labels of the segment show the sources one by one.  They are different
from one another and sorted by position, offset and length; labels that agree in
all three stand in the order of their sources, by span and index. -/
structure Segment.Arranges (segment : Segment) (sources : List Candidate) :
    Prop where
  shown : List.Forall₂ segment.Shows sources segment.labels
  distinct : segment.labels.Nodup
  ordered : segment.labels.Pairwise fun label next =>
    label.notAfter next = true
  ties : (sources.zip segment.labels).Pairwise fun earlier later =>
    later.2.notAfter earlier.2 = true → earlier.1.notAfter later.1 = true

namespace Group

/-- The labels of a group are those of some of its candidates, sorted by their
columns and then as the candidates were. -/
theorem exists_orderedLabels_eq {group : Group}
    (sorted : group.members.Pairwise fun candidate other =>
      candidate.notAfter other = true) :
    ∃ sources : List Candidate,
      group.orderedLabels = sources.map group.placed ∧
      (∀ source ∈ sources, source ∈ group.members) ∧
      sources.Pairwise fun candidate other =>
        (group.placed candidate).notAfter (group.placed other) = true ∧
          ((group.placed other).notAfter (group.placed candidate) = true →
            candidate.notAfter other = true) := by
  let before (candidate other : Candidate) : Bool :=
    (group.placed candidate).notAfter (group.placed other)
  have moved : (group.members.map group.placed).mergeSort PlacedLabel.notAfter =
      (group.members.mergeSort before).map group.placed := by
    symm
    apply List.map_mergeSort
    intro candidate _ other _
    rfl
  obtain ⟨sources, within, labels_eq⟩ := List.sublist_map_iff.mp
    (eraseDups_sublist ((group.members.mergeSort before).map group.placed))
  have trans (candidate other third : Candidate) :=
    PlacedLabel.notAfter_trans (group.placed candidate) (group.placed other)
      (group.placed third)
  have total (candidate other : Candidate) :=
    PlacedLabel.notAfter_total (group.placed candidate) (group.placed other)
  have columns : (group.members.mergeSort before).Pairwise fun candidate other =>
      before candidate other = true :=
    List.pairwise_mergeSort trans total group.members
  have ties := pairwise_mergeSort_stable trans total sorted
  refine ⟨sources, ?_, ?_, (columns.and ties).sublist within⟩
  · rw [orderedLabels, moved]
    exact labels_eq
  · intro source member
    exact List.mem_mergeSort.mp (within.subset member)

/-- Labels that differ once they are placed are all kept. -/
theorem orderedLabels_eq_mergeSort {group : Group}
    (distinct : (group.members.map group.placed).Nodup) :
    group.orderedLabels =
      (group.members.map group.placed).mergeSort PlacedLabel.notAfter := by
  have sorted := List.mergeSort_perm (group.members.map group.placed)
    PlacedLabel.notAfter
  exact eraseDups_eq_self (sorted.nodup_iff.mpr distinct)

section Closed

variable {group : Group} {segment : Segment}
variable (first : segment.first = group.first)
variable (gathers : segment.Gathers group.members)
variable (anchored : ∀ member ∈ group.members, member.Anchored)

include first gathers anchored

/-- The segment of a group shows each of its candidates. -/
theorem shows_placed : ∀ member ∈ group.members,
    segment.Shows member (group.placed member) := by
  intro member found
  rw [placed, ← first]
  exact gathers.shows_rebased anchored found

/-- Different anchored candidates of a group keep different labels. -/
theorem length_orderedLabels
    (different : group.members.Pairwise fun candidate other =>
      ¬ (candidate.span = other.span ∧ candidate.label = other.label)) :
    group.orderedLabels.length = group.members.length := by
  have shown := shows_placed first gathers anchored
  have distinct : (group.members.map group.placed).Nodup := by
    refine List.pairwise_map.mpr (different.imp_of_mem ?_)
    intro candidate other found other_found apart same
    have candidate_shown := shown candidate found
    rw [same] at candidate_shown
    apply apart
    apply candidate_shown.same_source (shown other other_found)
    rw [(anchored candidate found).offset_eq, (anchored other other_found).offset_eq]
  rw [orderedLabels_eq_mergeSort distinct, List.length_mergeSort,
    List.length_map]

end Closed

end Group

section Merging

variable {splitEqual : Bool} {candidates : List Candidate}
variable {segments : List Segment}
variable (merged : mergeOverlaps splitEqual candidates = .ok segments)
variable (anchored : ∀ candidate ∈ candidates, candidate.Anchored)

include merged anchored

/-- Every segment of a merge arranges the labels of some of the candidates. -/
theorem exists_arranges {segment : Segment} (member : segment ∈ segments) :
    ∃ sources, (∀ source ∈ sources, source ∈ candidates) ∧
      segment.Arranges sources := by
  obtain ⟨group, found, closed, gathers⟩ :=
    exists_group_of_mem_segments merged member
  obtain ⟨first_eq, -, labels_eq⟩ := Segment.fields_of_ofLabels? closed
  have among : ∀ candidate ∈ group.members, candidate ∈ candidates :=
    fun candidate inside => exists_group_iff.mp ⟨group, found, inside⟩
  obtain ⟨sources, ordered_eq, within, ordered⟩ :=
    Group.exists_orderedLabels_eq (pairwise_members_of_mem_groupsOf found)
  rw [ordered_eq] at labels_eq
  refine ⟨sources, fun source inside => among source (within source inside), ?_⟩
  constructor
  · rw [labels_eq, List.forall₂_map_right_iff, List.forall₂_same]
    intro source inside
    rw [Group.placed, ← first_eq]
    exact gathers.shows_rebased
      (fun candidate kept => anchored candidate (among candidate kept))
      (within source inside)
  · rw [labels_eq, ← ordered_eq]
    exact nodup_eraseDups _
  · rw [labels_eq]
    exact List.pairwise_map.mpr (ordered.imp And.left)
  · rw [labels_eq, ← List.map_prod_left_eq_zip]
    exact List.pairwise_map.mpr (ordered.imp And.right)

/-- A merge keeps as many labels as there are different candidates. -/
theorem length_flatMap_labels
    (different : candidates.Pairwise fun candidate other =>
      ¬ (candidate.span = other.span ∧ candidate.label = other.label)) :
    (segments.flatMap fun segment => segment.labels).length =
      candidates.length := by
  obtain ⟨closed, closing, rfl⟩ := mergeOverlaps_eq_ok_iff.mp merged
  have kept : ∀ group ∈ groupsOf splitEqual candidates, ∀ segment,
      group.close = .ok segment →
        group.members.length = segment.labels.length := by
    intro group found segment made
    obtain ⟨first_eq, -, labels_eq⟩ := Segment.fields_of_ofLabels? made
    rw [labels_eq]
    symm
    apply Group.length_orderedLabels first_eq
      (Group.gathers_of_close (cohesive_of_mem_groupsOf found) made)
    · intro member inside
      exact anchored member (exists_group_iff.mp ⟨group, found, inside⟩)
    · exact pairwise_members_of_pairwise (fun _ _ different same =>
        different ⟨same.1.symm, same.2.symm⟩) different found
  have lengths : (groupsOf splitEqual candidates).map
      (fun group => group.members.length) =
        closed.map fun segment => segment.labels.length := by
    apply map_eq_map_of_forall₂
    exact ((List.forall₂_and_left _ _).mpr ⟨kept, closing⟩).imp
      fun group segment related => related.1 segment related.2
  calc
    ((closed.mergeSort Segment.notAfter).flatMap fun segment =>
        segment.labels).length =
        (closed.flatMap fun segment => segment.labels).length :=
      ((List.mergeSort_perm closed _).flatMap_right _).length_eq
    _ = ((groupsOf splitEqual candidates).flatMap Group.members).length := by
      rw [List.length_flatMap, List.length_flatMap, ← lengths]
    _ = candidates.length := by
      rw [flatMap_members_groupsOf, List.length_mergeSort]

end Merging

/-- Merging anchored candidates succeeds, and it only moves their labels: every
candidate is shown by a segment, and every segment arranges the labels of some
candidates.  If no two candidates have the same span and label, there are as
many labels as candidates. -/
theorem mergeOverlaps_arranges (splitEqual : Bool) (candidates : List Candidate)
    (anchored : ∀ candidate ∈ candidates, candidate.Anchored) :
    ∃ segments, mergeOverlaps splitEqual candidates = .ok segments ∧
      (∀ candidate ∈ candidates, ∃ segment ∈ segments,
        ∃ label ∈ segment.labels, segment.Shows candidate label) ∧
      (∀ segment ∈ segments, ∃ sources,
        (∀ source ∈ sources, source ∈ candidates) ∧
          segment.Arranges sources) ∧
      ((candidates.Pairwise fun candidate other =>
          ¬ (candidate.span = other.span ∧ candidate.label = other.label)) →
        (segments.flatMap fun segment => segment.labels).length =
          candidates.length) := by
  obtain ⟨segments, merged⟩ : ∃ segments,
      mergeOverlaps splitEqual candidates = .ok segments :=
    exists_mergeOverlaps_eq_ok fun candidate member =>
      (anchored candidate member).caret_inside
  refine ⟨segments, merged, ?_, ?_, ?_⟩
  · intro candidate member
    exact exists_label_shows merged anchored member
  · intro segment member
    exact exists_arranges merged anchored member
  · exact length_flatMap_labels merged anchored

/-- Two labels of one span, pushed in reverse, and a third that overlaps both. -/
theorem mergeOverlaps_arranges_sameSpan :
    let candidate (first last : Int) (ordered : first ≤ last) (index : Int)
        (word : Char) : Candidate := {
      span := ⟨first, last, ordered⟩
      label := {
        position := 0, offset := 0, length := last - first + 1
        message := ⟨.ofTokens [.text [word]], []⟩, children := []
        caretColor := none, highlightColor := none }
      index := index }
    let second := candidate 4 6 (by decide) 1 'b'
    let first := candidate 4 6 (by decide) 0 'a'
    let bridge := candidate 2 4 (by decide) 2 'c'
    let candidates := [second, first, bridge]
    (∀ candidate ∈ candidates, candidate.Anchored) ∧
      ∃ segments, mergeOverlaps true candidates = .ok segments ∧
        (∀ segment ∈ segments, ∃ sources,
          (∀ source ∈ sources, source ∈ candidates) ∧
            segment.Arranges sources) ∧
        (segments.flatMap fun segment => segment.labels).length = 3 := by
  intro candidate second first bridge candidates
  have anchored : ∀ candidate ∈ candidates, candidate.Anchored := by
    intro member found
    simp only [candidates, List.mem_cons, List.not_mem_nil, or_false] at found
    rcases found with rfl | rfl | rfl
    all_goals exact ⟨by decide, by decide, rfl, rfl, by decide, by decide⟩
  have different : candidates.Pairwise fun candidate other =>
      ¬ (candidate.span = other.span ∧ candidate.label = other.label) := by
    decide
  obtain ⟨segments, merged, _, arranged, counted⟩ :=
    mergeOverlaps_arranges true candidates anchored
  exact ⟨anchored, segments, merged, arranged, counted different⟩

end CaretReport
