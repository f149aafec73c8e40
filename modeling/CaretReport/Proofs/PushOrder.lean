import CaretReport.Proofs.DraftOutcome
import CaretReport.Proofs.LabelOrder
import CaretReport.Proofs.ParallelMerges
import Mathlib

/-!
# The order in which labels are pushed

Labels are sorted by their spans, and only labels of one span keep the order in
which they were pushed.  A stable sort is decided by the order within each key.
So a draft whose labels are reordered, but not among labels of one final span,
is finished with the same report.
-/

namespace CaretReport

section Sorting

variable {Item Key : Type} [DecidableEq Key] {key : Item → Key}
variable {before : Item → Item → Bool}

/-- Sorted lists with the same items of every key, in the same order, are
equal. -/
theorem eq_of_pairwise_of_filter_eq
    (same_key : ∀ item other, before item other = true →
      before other item = true → key item = key other)
    (refl : ∀ item, before item item = true) {items others : List Item}
    (sorted : items.Pairwise fun item other => before item other = true)
    (others_sorted : others.Pairwise fun item other =>
      before item other = true)
    (same : ∀ value, items.filter (fun item => decide (key item = value)) =
      others.filter fun item => decide (key item = value)) : items = others := by
  induction items generalizing others with
  | nil =>
      cases others with
      | nil => rfl
      | cons other rest => simpa using same (key other)
  | cons item rest ih =>
      cases others with
      | nil => simpa using same (key item)
      | cons other more =>
          obtain ⟨first, rest_sorted⟩ := List.pairwise_cons.mp sorted
          obtain ⟨other_first, more_sorted⟩ :=
            List.pairwise_cons.mp others_sorted
          have shared : ∀ value, value ∈ item :: rest ↔
              value ∈ other :: more := by
            intro value
            have kept := congrArg (value ∈ ·) (same (key value))
            simpa only [List.mem_filter, decide_true, and_true, eq_iff_iff]
              using kept
          have after : before item other = true := by
            rcases List.mem_cons.mp ((shared other).mpr List.mem_cons_self) with
              rfl | later
            · exact refl other
            · exact first other later
          have reverse : before other item = true := by
            rcases List.mem_cons.mp ((shared item).mp List.mem_cons_self) with
              rfl | later
            · exact refl item
            · exact other_first item later
          have heads := same (key item)
          have keys := same_key item other after reverse
          rw [List.filter_cons_of_pos (by simp),
            List.filter_cons_of_pos (by simp [keys])] at heads
          obtain ⟨rfl, _⟩ := List.cons.inj heads
          rw [ih rest_sorted more_sorted]
          intro value
          have tails := same value
          rw [List.filter_cons, List.filter_cons] at tails
          split at tails
          · exact (List.cons.inj tails).2
          · exact tails

variable
  (trans : ∀ item other third, before item other = true →
    before other third = true → before item third = true)
  (total : ∀ item other, (before item other || before other item) = true)

include trans total

/-- A stable sort is decided by the order of the items of every key. -/
theorem mergeSort_eq_of_filter_eq
    (key_iff : ∀ item other, key item = key other ↔
      before item other = true ∧ before other item = true)
    {items others : List Item}
    (same : ∀ value, items.filter (fun item => decide (key item = value)) =
      others.filter fun item => decide (key item = value)) :
    items.mergeSort before = others.mergeSort before := by
  have alike (item other : Item) (keys : key item = key other) :
      before item other = true := ((key_iff item other).mp keys).1
  have same_sorted (value : Key) :
      (items.mergeSort before).filter (fun item => decide (key item = value)) =
        (others.mergeSort before).filter
          fun item => decide (key item = value) := by
    rw [filter_mergeSort trans total alike, filter_mergeSort trans total alike]
    exact same value
  exact eq_of_pairwise_of_filter_eq
    (fun item other after reverse => (key_iff item other).mpr ⟨after, reverse⟩)
    (fun item => alike item item rfl)
    (List.pairwise_mergeSort trans total items)
    (List.pairwise_mergeSort trans total others) same_sorted

end Sorting

theorem Span.notAfter_iff (span other : Span) :
    span.notAfter other = true ↔
      span.first < other.first ∨
        span.first = other.first ∧ span.last ≤ other.last := by
  simp only [notAfter, precedes, Bool.not_eq_true', decide_eq_false_iff_not]
  omega

/-- The labels in another order, in which labels of one final span follow one
another as before. -/
structure Reorders (text : List Char) (labels others : List Label) : Prop where
  perm : others.Perm labels
  keeps : ∀ span,
    others.filter (fun label => decide (label.finalSpan text = span)) =
      labels.filter fun label => decide (label.finalSpan text = span)

theorem Reorders.symm {text : List Char} {labels others : List Label}
    (reorders : Reorders text labels others) : Reorders text others labels :=
  ⟨reorders.perm.symm, fun span => (reorders.keeps span).symm⟩

/-- Neighbours with different final spans may be pushed in either order. -/
theorem reorders_swap {text : List Char} {label other : Label}
    (different : label.finalSpan text ≠ other.finalSpan text)
    (rest : List Label) :
    Reorders text (label :: other :: rest) (other :: label :: rest) := by
  refine ⟨List.Perm.swap label other rest, ?_⟩
  intro span
  by_cases here : label.finalSpan text = span
  · have elsewhere : other.finalSpan text ≠ span :=
      fun there => different (here.trans there.symm)
    simp only [List.filter_cons, elsewhere, decide_false, Bool.false_eq_true,
      if_false]
  · simp only [List.filter_cons, here, decide_false, Bool.false_eq_true,
      if_false]

/-- Whether a label stands at or before another by their final spans. -/
def Label.notAfter (text : List Char) (label other : Label) : Bool :=
  (label.finalSpan text).notAfter (other.finalSpan text)

/-- Reordered labels are sorted into one and the same order. -/
theorem Reorders.mergeSort_eq {text : List Char} {labels others : List Label}
    (reorders : Reorders text labels others) :
    others.mergeSort (Label.notAfter text) =
      labels.mergeSort (Label.notAfter text) := by
  refine mergeSort_eq_of_filter_eq ?_ ?_ ?_ reorders.keeps
  · intro label other third before after
    unfold Label.notAfter at before after ⊢
    rw [Span.notAfter_iff] at before after ⊢
    omega
  · intro label other
    unfold Label.notAfter
    rw [Bool.or_eq_true, Span.notAfter_iff, Span.notAfter_iff]
    omega
  · intro label other
    unfold Label.notAfter
    rw [Span.notAfter_iff, Span.notAfter_iff]
    constructor
    · intro same
      rw [same]
      omega
    · intro both
      ext
      · omega
      · omega

/-- The excerpt around spans does not depend on their order. -/
theorem Excerpt.ofSpans_perm {spans others : List Span}
    (perm : others.Perm spans) (text : List Char) (mode : TrimMode)
    (padding : TrimPadding) :
    ofSpans text others mode padding = ofSpans text spans mode padding := by
  have firsts : (others.map Span.first).min? = (spans.map Span.first).min? := by
    apply Option.ext
    intro first
    simp only [List.min?_eq_some_iff, (perm.map Span.first).mem_iff]
  have lasts : (others.map Span.last).max? = (spans.map Span.last).max? := by
    apply Option.ext
    intro last
    simp only [List.max?_eq_some_iff, (perm.map Span.last).mem_iff]
  rw [ofSpans, ofSpans, firsts, lasts]

namespace Draft

/-- The draft with other labels. -/
def withLabels (draft : Draft) (labels : List Label) : Draft :=
  { draft with labels := labels }

section Standing

variable {draft : Draft} {excerpt : Excerpt}
variable (window : excerpt.Windows draft.text)
variable (bounded : (draft.text.length : Int) + 8 ≤ maxPosition)

include window bounded

/-- Candidates are ordered as the final spans of their labels, and then as the
labels were pushed. -/
theorem Stands.notAfter_eq {entry next : Label × Nat}
    {candidate other : Candidate} (stands : draft.Stands excerpt entry candidate)
    (other_stands : draft.Stands excerpt next other) :
    List.zipIdxLE (Label.notAfter draft.text) entry next =
      candidate.notAfter other := by
  have ends := stands.ends_eq window bounded
  have other_ends := other_stands.ends_eq window bounded
  have index : candidate.index = entry.2 := stands.places.index
  have other_index : other.index = next.2 := other_stands.places.index
  rw [Bool.eq_iff_iff, Candidate.notAfter_iff, ends.1, ends.2, other_ends.1,
    other_ends.2, index, other_index]
  simp only [List.zipIdxLE, Label.notAfter, Span.notAfter_iff]
  split
  · split
    · rw [decide_eq_true_eq]
      omega
    · simp only [true_iff]
      omega
  · simp only [Bool.false_eq_true, false_iff]
    omega

/-- Sorted candidates stand for the sorted labels, one by one. -/
theorem forall₂_sorted {candidates : List Candidate}
    (stands : List.Forall₂ (draft.Stands excerpt) draft.labels.zipIdx
      candidates) :
    List.Forall₂ (fun label candidate => ∃ index,
        draft.Stands excerpt (label, index) candidate)
      (draft.labels.mergeSort (Label.notAfter draft.text))
      (candidates.mergeSort Candidate.notAfter) := by
  have sorted := forall₂_mergeSort (fun entry candidate next other
      (here : draft.Stands excerpt entry candidate)
      (there : draft.Stands excerpt next other) =>
    here.notAfter_eq window bounded there) stands
  rw [← List.mergeSort_zipIdx, List.forall₂_map_left_iff]
  exact sorted.imp fun entry candidate stood => ⟨entry.2, stood⟩

end Standing

/-- A label that is placed twice over one excerpt, with another index, is not
shifted. -/
theorem Places.shifts_zero {config : Config} {excerpt : Excerpt}
    {checked rechecked : CheckedLabel} {candidate other : Candidate}
    (placed : Places config excerpt checked candidate)
    (replaced : Places config excerpt rechecked other)
    (label : rechecked.label = checked.label)
    (span : rechecked.span = checked.span)
    (truncated : rechecked.truncated = checked.truncated) :
    candidate.Shifts 0 other := by
  have same_span : other.span = candidate.span := by
    rw [replaced.span, placed.span, span]
  refine ⟨⟨?_, ?_⟩, placed.same_label replaced label truncated ?_⟩
  · rw [same_span, Int.add_zero]
  · rw [same_span, Int.add_zero]
  · rw [same_span]

section Finishing

variable {draft : Draft} {others : List Label}
variable (reorders : Reorders draft.text draft.labels others)

include reorders

/-- The excerpt of a draft does not depend on the order of its labels. -/
theorem excerpt_withLabels :
    (draft.withLabels others).excerpt (draft.withLabels others).records =
      draft.excerpt draft.records := by
  have perm : (others.map fun label => label.finalSpan draft.text).Perm
      (draft.labels.map fun label => label.finalSpan draft.text) :=
    reorders.perm.map _
  unfold excerpt
  rw [spans_records, spans_records]
  exact congrArg (fun window => if draft.config.trimInput then window else _)
    (Excerpt.ofSpans_perm perm _ _ _)

variable (bounded : (draft.text.length : Int) + 8 ≤ maxPosition)

include bounded

/-- Finished drafts with reordered labels have the same segments. -/
theorem segments_withLabels {report other : Report}
    (finished : draft.finish = .ok report)
    (refinished : (draft.withLabels others).finish = .ok other) :
    other.segments = report.segments := by
  obtain ⟨candidates, window, stands, merged⟩ :=
    exists_standing bounded finished
  obtain ⟨next, next_window, next_stands, remerged⟩ :=
    exists_standing (show ((draft.withLabels others).text.length : Int) + 8 ≤
      maxPosition from bounded) refinished
  have sorted := forall₂_sorted window bounded stands
  have resorted := forall₂_sorted next_window bounded next_stands
  rw [excerpt_withLabels reorders] at resorted
  change List.Forall₂ _ (others.mergeSort (Label.notAfter draft.text)) _
    at resorted
  rw [reorders.mergeSort_eq] at resorted
  have same : List.Forall₂ (Candidate.Shifts 0)
      (candidates.mergeSort Candidate.notAfter)
      (next.mergeSort Candidate.notAfter) := by
    refine forall₂_compose sorted.flip resorted ?_
    rintro candidate label other ⟨index, stood⟩ ⟨place, restood⟩
    exact stood.places.shifts_zero restood.places rfl rfl rfl
  obtain ⟨moved, made, shifts⟩ := exists_merge_shifts same merged
  obtain rfl : moved = other.segments := Except.ok.inj (made.symm.trans remerged)
  rw [← List.forall₂_eq_eq_eq]
  exact shifts.flip.imp fun _ _ => Segment.Shifts.eq_of_zero

/-- A draft with reordered labels is finished with the same report. -/
theorem finish_withLabels {report : Report}
    (finished : draft.finish = .ok report) :
    (draft.withLabels others).finish = .ok report := by
  obtain ⟨_, checking, _⟩ := finish_eq_ok_iff.mp finished
  obtain ⟨labelled, nonempty, accepted, _⟩ := check_eq_ok_iff.mp checking
  have rechecking : (draft.withLabels others).check =
      .ok (draft.withLabels others).records := by
    refine check_eq_ok_iff.mpr ⟨?_, nonempty, ?_, rfl⟩
    · intro unlabelled
      have none : others = [] := unlabelled
      rw [none] at reorders
      exact labelled reorders.perm.nil_eq.symm
    · intro label member
      exact accepted label (reorders.perm.mem_iff.mp member)
  obtain ⟨other, refinished⟩ := exists_finish_of_check
    (show ((draft.withLabels others).text.length : Int) + 8 ≤ maxPosition
      from bounded) rechecking
  have segments := segments_withLabels reorders bounded finished refinished
  obtain ⟨_, _, _, made⟩ := exists_places_of_finish finished
  obtain ⟨_, _, _, remade⟩ := exists_places_of_finish refinished
  rw [excerpt_withLabels reorders, segments] at remade
  rw [refinished, made, remade]
  rfl

end Finishing

/-- The order in which labels are pushed matters only among labels of one final
span: a draft whose labels are reordered otherwise is finished exactly when the
draft is, and with the same report. -/
theorem finish_eq_ok_iff_of_reorders {draft : Draft} {others : List Label}
    (bounded : (draft.text.length : Int) + 8 ≤ maxPosition)
    (reorders : Reorders draft.text draft.labels others) (report : Report) :
    (draft.withLabels others).finish = .ok report ↔
      draft.finish = .ok report := by
  constructor
  · intro refinished
    have back : Reorders (draft.withLabels others).text
        (draft.withLabels others).labels draft.labels := reorders.symm
    exact finish_withLabels back bounded refinished
  · intro finished
    exact finish_withLabels reorders bounded finished

/-- Two labels that clamping moves onto one span, and a third that overlaps
them and is pushed earlier or later. -/
theorem finish_eq_ok_iff_of_reorders_sameSpan :
    let first : Label := { span := ⟨4, 9, by decide⟩, message := ['f'] }
    let second : Label := { span := ⟨4, 7, by decide⟩, message := ['s'] }
    let wide : Label := { span := ⟨2, 4, by decide⟩, message := ['w'] }
    let draft : Draft := {
      text := "a = b".toList
      config := { boundsPolicy := .truncateSilent }
      labels := [first, wide, second] }
    let others := [wide, first, second]
    (draft.text.length : Int) + 8 ≤ maxPosition ∧
      Reorders draft.text draft.labels others ∧
      ∃ report, draft.finish = .ok report ∧
        (draft.withLabels others).finish = .ok report := by
  intro first second wide draft others
  have bounded : (draft.text.length : Int) + 8 ≤ maxPosition := by
    unfold draft
    decide
  have different : first.finalSpan draft.text ≠ wide.finalSpan draft.text := by
    unfold wide first draft
    decide
  have reorders : Reorders draft.text draft.labels others :=
    reorders_swap different [second]
  have echoed : draft.finish.toOption.map Report.text = some "a = b".toList := by
    unfold draft
    cbv
  obtain ⟨report, finished, _⟩ := exists_eq_ok_of_map echoed
  exact ⟨bounded, reorders, report, finished,
    (finish_eq_ok_iff_of_reorders bounded reorders report).mpr finished⟩

end Draft

end CaretReport
