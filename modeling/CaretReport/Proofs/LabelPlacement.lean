import CaretReport.Proofs.DraftStages
import CaretReport.Proofs.ExcerptText
import CaretReport.Proofs.SegmentLabels
import Mathlib

/-!
# Where labels end up

A pushed label goes through four coordinate systems: its span is clamped to the
text, moved onto the excerpt, given to a candidate, and counted from the start
of a segment.  This file follows it through all four and proves that the report
points at the characters that the label pointed at.
-/

namespace CaretReport

theorem caretOffset_bounds {width : Int} (positive : 1 ≤ width) :
    0 ≤ caretOffset width ∧ caretOffset width ≤ width - 1 := by
  unfold caretOffset
  split
  · omega
  · split <;> omega

namespace Draft

/-- The excerpt of a draft is a window that holds all the final spans. -/
theorem windows_excerpt {draft : Draft} (nonempty : draft.text ≠ [])
    (bounded : (draft.text.length : Int) ≤ maxPosition) :
    (draft.excerpt draft.records).Windows draft.text ∧
      ∀ label ∈ draft.labels,
        (draft.excerpt draft.records).windowStart ≤
            (label.finalSpan draft.text).first ∧
          (label.finalSpan draft.text).last <
            (draft.excerpt draft.records).windowEnd := by
  unfold excerpt
  rw [spans_records]
  split
  · have inside : ∀ span ∈ draft.labels.map
        (fun label => label.finalSpan draft.text),
        0 ≤ span.first ∧ span.last < (draft.text.length : Int) := by
      intro span member
      obtain ⟨label, _, rfl⟩ := List.mem_map.mp member
      exact label.finalSpan_bounds nonempty
    obtain ⟨window, holds⟩ := Excerpt.windows_ofSpans draft.config.trimMode
      draft.config.trimPadding inside bounded
    exact ⟨window, fun label member =>
      holds _ (List.mem_map_of_mem member)⟩
  · exact ⟨Excerpt.windows_untrimmed draft.text, fun label _ =>
      label.finalSpan_bounds nonempty⟩

/-- A candidate lies in a text over the characters that a label of the draft
points at. -/
structure Echoes (draft : Draft) (text : List Char) (label : Label)
    (candidate : Candidate) : Prop where
  wraps : Wraps draft.config label (label.leaves draft.text) candidate.label
  inside : candidate.span.last < text.length
  same_text :
    slice text candidate.span.first (candidate.span.last + 1) =
      slice draft.text (label.finalSpan draft.text).first
        ((label.finalSpan draft.text).last + 1)
  same_caret :
    charAt? text (candidate.span.first + candidate.label.position) =
      charAt? draft.text ((label.finalSpan draft.text).first +
        caretOffset (label.finalSpan draft.text).length)

section Placing

variable {draft : Draft} {excerpt : Excerpt} {label : Label} {index : Nat}
variable {candidate : Candidate}
variable (placed : Places draft.config excerpt
  (label.record draft.text index) candidate)
variable (window : excerpt.Windows draft.text)
variable (bounded : (draft.text.length : Int) + 8 ≤ maxPosition)
variable (after : excerpt.windowStart ≤ (label.finalSpan draft.text).first)
variable (before : (label.finalSpan draft.text).last < excerpt.windowEnd)

include placed window bounded after before

theorem anchored_of_places : candidate.Anchored := by
  have span_eq : candidate.span = excerpt.rebase (label.finalSpan draft.text) :=
    placed.span
  have bounds := Excerpt.rebase_bounds window bounded after before
  rw [← span_eq] at bounds
  have ordered := candidate.span.ordered
  have length := Span.length_eq bounds.1 bounds.2.2.1
  have caret := caretOffset_bounds (show 1 ≤ candidate.span.length by omega)
  rw [← placed.position, length] at caret
  exact {
    first_nonneg := bounds.1
    last_lt := bounds.2.2.1
    offset_eq := placed.offset
    length_eq := placed.length
    caret_inside := ⟨caret.1, by omega⟩ }

/-- A candidate lies in the excerpt over the characters of its label, because
neither its width nor the distance to its caret changes on the way. -/
theorem echoes_of_places : draft.Echoes excerpt.text label candidate := by
  have span_eq : candidate.span = excerpt.rebase (label.finalSpan draft.text) :=
    placed.span
  have anchor := anchored_of_places placed window bounded after before
  have bounds := Excerpt.rebase_bounds window bounded after before
  have ordered := (label.finalSpan draft.text).ordered
  have start := window.start_nonneg
  have stop := window.end_le
  have length := Span.length_eq anchor.first_nonneg anchor.last_lt
  have source_length := Span.length_eq
    (show 0 ≤ (label.finalSpan draft.text).first by omega) (by omega)
  rw [← span_eq] at bounds
  have same_length :
      candidate.span.length = (label.finalSpan draft.text).length := by omega
  have caret := caretOffset_bounds
    (show 1 ≤ (label.finalSpan draft.text).length by omega)
  have first_eq : candidate.span.first =
      excerpt.column (label.finalSpan draft.text).first := by
    rw [span_eq]
    rfl
  have caret_eq : candidate.span.first + candidate.label.position =
      excerpt.column ((label.finalSpan draft.text).first +
        caretOffset (label.finalSpan draft.text).length) := by
    rw [placed.position, same_length, first_eq,
      Excerpt.column_eq window bounded after (by omega),
      Excerpt.column_eq window bounded (by omega) (by omega)]
    omega
  refine ⟨placed.wraps, bounds.2.1, ?_, ?_⟩
  · rw [span_eq]
    exact Excerpt.slice_rebase window bounded after before
  · rw [caret_eq]
    exact Excerpt.charAt?_column window bounded (by omega) (by omega)

end Placing

/-- A finished draft merges one candidate for each of its labels, over the text
of its report. -/
theorem exists_candidates_of_finish {draft : Draft} {report : Report}
    (bounded : (draft.text.length : Int) + 8 ≤ maxPosition)
    (finished : draft.finish = .ok report) :
    ∃ candidates,
      mergeOverlaps draft.config.splitOnEqualStart candidates =
        .ok report.segments ∧
      (∀ candidate ∈ candidates, candidate.Anchored) ∧
      (∀ label ∈ draft.labels, ∃ candidate ∈ candidates,
        draft.Echoes report.text label candidate) ∧
      ∀ candidate ∈ candidates, ∃ label ∈ draft.labels,
        draft.Echoes report.text label candidate := by
  obtain ⟨_, checking, candidates, placing, segments, merged, rfl⟩ :=
    finish_eq_ok_iff.mp finished
  obtain ⟨_, nonempty, _, rfl⟩ := check_eq_ok_iff.mp checking
  obtain ⟨window, holds⟩ := windows_excerpt nonempty (by omega)
  have source : ∀ candidate ∈ candidates, ∃ label ∈ draft.labels,
      candidate.Anchored ∧
        draft.Echoes (draft.excerpt draft.records).text label candidate := by
    intro candidate member
    obtain ⟨item, found, made⟩ := exists_source_of_mapM placing member
    obtain ⟨label, label_mem, index, rfl⟩ := exists_label_of_mem_records found
    obtain ⟨after, before⟩ := holds label label_mem
    have placed := places_of_candidate made
    exact ⟨label, label_mem,
      anchored_of_places placed window bounded after before,
      echoes_of_places placed window bounded after before⟩
  refine ⟨candidates, merged, ?_, ?_, ?_⟩
  · intro candidate member
    obtain ⟨_, _, anchored, _⟩ := source candidate member
    exact anchored
  · intro label member
    obtain ⟨index, found⟩ := exists_mem_records member
    obtain ⟨candidate, candidate_mem, made⟩ := exists_target_of_mapM placing found
    obtain ⟨after, before⟩ := holds label member
    exact ⟨candidate, candidate_mem, echoes_of_places (places_of_candidate made)
      window bounded after before⟩
  · intro candidate member
    obtain ⟨label, label_mem, _, echoes⟩ := source candidate member
    exact ⟨label, label_mem, echoes⟩

/-- A pushed label, with its index, stands over an excerpt as a candidate. -/
structure Stands (draft : Draft) (excerpt : Excerpt) (entry : Label × Nat)
    (candidate : Candidate) : Prop where
  after : excerpt.windowStart ≤ (entry.1.finalSpan draft.text).first
  before : (entry.1.finalSpan draft.text).last < excerpt.windowEnd
  places : Places draft.config excerpt (entry.1.record draft.text entry.2)
    candidate

section Standing

variable {draft : Draft} {excerpt : Excerpt}
variable (window : excerpt.Windows draft.text)
variable (bounded : (draft.text.length : Int) + 8 ≤ maxPosition)

include window bounded

/-- A candidate stands over the excerpt where its label stands over the text. -/
theorem Stands.ends_eq {entry : Label × Nat} {candidate : Candidate}
    (stands : draft.Stands excerpt entry candidate) :
    candidate.span.first = (entry.1.finalSpan draft.text).first -
        excerpt.windowStart + excerpt.lead.length ∧
      candidate.span.last = (entry.1.finalSpan draft.text).last -
        excerpt.windowStart + excerpt.lead.length := by
  have ordered := (entry.1.finalSpan draft.text).ordered
  have after := stands.after
  have before := stands.before
  have span_eq : candidate.span =
      excerpt.rebase (entry.1.finalSpan draft.text) := stands.places.span
  rw [span_eq]
  exact ⟨Excerpt.column_eq window bounded after (by omega),
    Excerpt.column_eq window bounded (by omega) before⟩

theorem Stands.anchored {entry : Label × Nat} {candidate : Candidate}
    (stands : draft.Stands excerpt entry candidate) : candidate.Anchored :=
  anchored_of_places stands.places window bounded stands.after stands.before

end Standing

/-- The candidates of a finished draft stand for its labels. -/
theorem exists_standing {draft : Draft} {report : Report}
    (bounded : (draft.text.length : Int) + 8 ≤ maxPosition)
    (finished : draft.finish = .ok report) :
    ∃ candidates,
      (draft.excerpt draft.records).Windows draft.text ∧
      List.Forall₂ (draft.Stands (draft.excerpt draft.records))
        draft.labels.zipIdx candidates ∧
      mergeOverlaps draft.config.splitOnEqualStart candidates =
        .ok report.segments := by
  obtain ⟨_, checking, _⟩ := finish_eq_ok_iff.mp finished
  obtain ⟨_, nonempty, _, _⟩ := check_eq_ok_iff.mp checking
  obtain ⟨candidates, fits, merged, _⟩ := exists_places_of_finish finished
  obtain ⟨window, holds⟩ := windows_excerpt nonempty
    (show (draft.text.length : Int) ≤ maxPosition by omega)
  rw [records, List.forall₂_map_left_iff] at fits
  refine ⟨candidates, window, ?_, merged⟩
  have within : ∀ entry ∈ draft.labels.zipIdx, entry.1 ∈ draft.labels :=
    fun entry member => List.fst_mem_of_mem_zipIdx member
  refine ((List.forall₂_and_left _ _).mpr ⟨within, fits⟩).imp ?_
  rintro entry candidate ⟨member, placed⟩
  obtain ⟨after, before⟩ := holds entry.1 member
  exact ⟨after, before, placed⟩

/-- A label of a segment carries what a pushed label says, inside the segment
and the echoed text, over the characters that the pushed label points at. -/
structure Locates (draft : Draft) (report : Report) (label : Label)
    (segment : Segment) (placed : PlacedLabel) : Prop where
  wraps : Wraps draft.config label (label.leaves draft.text) placed
  length_pos : 0 < placed.length
  inside_segment : segment.first ≤ segment.first + placed.offset ∧
    segment.first + placed.offset + placed.length - 1 ≤ segment.last
  inside_text : 0 ≤ segment.first + placed.offset ∧
    segment.first + placed.offset + placed.length - 1 < report.text.length
  same_text :
    slice report.text (segment.first + placed.offset)
        (segment.first + placed.offset + placed.length) =
      slice draft.text (label.finalSpan draft.text).first
        ((label.finalSpan draft.text).last + 1)
  same_caret : ∃ character,
    charAt? report.text (segment.first + placed.position) = some character ∧
      charAt? draft.text ((label.finalSpan draft.text).first +
        caretOffset (label.finalSpan draft.text).length) = some character

/-- A segment that shows the candidate of a label locates that label. -/
theorem locates_of_shows {draft : Draft} {report : Report} {label : Label}
    {candidate : Candidate} {segment : Segment} {placed : PlacedLabel}
    (anchored : candidate.Anchored)
    (echoes : draft.Echoes report.text label candidate)
    (shows : segment.Shows candidate placed) :
    draft.Locates report label segment placed := by
  have nonneg := anchored.first_nonneg
  have ordered := candidate.span.ordered
  have covers := shows.covers
  have starts := shows.starts
  have stops := shows.stops
  have inside := echoes.inside
  have caret := anchored.caret_inside
  unfold Candidate.CaretInside at caret
  have stops_eq : segment.first + placed.offset + placed.length =
      candidate.span.last + 1 := by omega
  obtain ⟨character, found⟩ : ∃ character, charAt? report.text
      (candidate.span.first + candidate.label.position) = some character := by
    rw [charAt?, if_pos (by omega)]
    exact ⟨_, List.getElem?_eq_getElem (by omega)⟩
  refine ⟨?_, by omega, by omega, by omega, ?_, character, ?_, ?_⟩
  · rw [shows.content]
    exact ⟨echoes.wraps.message, echoes.wraps.children,
      echoes.wraps.caretColor, echoes.wraps.highlightColor⟩
  · rw [stops_eq, starts]
    exact echoes.same_text
  · rw [shows.caret]
    exact found
  · rw [← echoes.same_caret]
    exact found

/-- A finished report points at the characters that its labels were pushed for:
every pushed label is located by a segment, and every label of every segment
locates a pushed one. -/
theorem finish_locates {draft : Draft} {report : Report}
    (bounded : (draft.text.length : Int) + 8 ≤ maxPosition)
    (finished : draft.finish = .ok report) :
    (∀ label ∈ draft.labels, ∃ segment ∈ report.segments,
      ∃ placed ∈ segment.labels, draft.Locates report label segment placed) ∧
    ∀ segment ∈ report.segments, ∀ placed ∈ segment.labels,
      ∃ label ∈ draft.labels, draft.Locates report label segment placed := by
  obtain ⟨candidates, merged, anchored, echoed, echoing⟩ :=
    exists_candidates_of_finish bounded finished
  constructor
  · intro label member
    obtain ⟨candidate, candidate_mem, echoes⟩ := echoed label member
    obtain ⟨segment, segment_mem, placed, placed_mem, shows⟩ :=
      exists_label_shows merged anchored candidate_mem
    exact ⟨segment, segment_mem, placed, placed_mem,
      locates_of_shows (anchored candidate candidate_mem) echoes shows⟩
  · intro segment segment_mem placed placed_mem
    obtain ⟨candidate, candidate_mem, shows⟩ :=
      exists_candidate_shown merged anchored segment_mem placed_mem
    obtain ⟨label, label_mem, echoes⟩ := echoing candidate candidate_mem
    exact ⟨label, label_mem,
      locates_of_shows (anchored candidate candidate_mem) echoes shows⟩

/-- Two labels that overlap, of which one reaches past the end of the text. -/
theorem finish_locates_overlapping :
    let draft : Draft := {
      text := "let total = price".toList
      config := { trimPadding := ⟨0, 0⟩, boundsPolicy := .truncateSilent }
      labels := [
        { span := ⟨12, 30, by decide⟩, message := "cost".toList },
        { span := ⟨4, 12, by decide⟩, message := "sum".toList }] }
    (draft.text.length : Int) + 8 ≤ maxPosition ∧
      ∃ report, draft.finish = .ok report ∧
        (∀ label ∈ draft.labels, ∃ segment ∈ report.segments,
          ∃ placed ∈ segment.labels,
            draft.Locates report label segment placed) ∧
        ∀ segment ∈ report.segments, ∀ placed ∈ segment.labels,
          ∃ label ∈ draft.labels,
            draft.Locates report label segment placed := by
  intro draft
  have bounded : (draft.text.length : Int) + 8 ≤ maxPosition := by
    unfold draft
    decide
  have echoed : draft.finish.toOption.map Report.text =
      some "... total = price".toList := by
    unfold draft
    cbv
  obtain ⟨report, finished, _⟩ := exists_eq_ok_of_map echoed
  exact ⟨bounded, report, finished, finish_locates bounded finished⟩

end Draft

end CaretReport
