import CaretReport.Proofs.DraftOutcome
import CaretReport.Proofs.ParallelMerges
import Mathlib

/-!
# Reports with and without trimming

A trimmed report echoes an excerpt of the text, so its segments stand elsewhere
than in the report of the whole text.  But every span is moved by the same
distance, that from the start of the window to the end of the leading ellipsis,
and wrapping and merging do not depend on where a span stands.  So the two
reports have the same segments up to that distance.
-/

namespace CaretReport

/-- How far right of a position of the text the excerpt shows it. -/
def Excerpt.margin (excerpt : Excerpt) : Int :=
  excerpt.lead.length - excerpt.windowStart

namespace Draft

/-- The draft with trimming switched on or off. -/
def trimming (draft : Draft) (trimInput : Bool) : Draft :=
  draft.withConfig { draft.config with trimInput := trimInput }

section Shifting

variable {text : List Char} {config : Config} {excerpt further : Excerpt}
variable (bounded : (text.length : Int) + 8 ≤ maxPosition)
variable (window : excerpt.Windows text) (next : further.Windows text)

include bounded window next

/-- Two excerpts that both show a span place its label alike, up to the distance
between the columns in which they show one position. -/
theorem shifts_of_places {checked : CheckedLabel} {candidate other : Candidate}
    (held : excerpt.windowStart ≤ checked.span.first ∧
      checked.span.last < excerpt.windowEnd)
    (next_held : further.windowStart ≤ checked.span.first ∧
      checked.span.last < further.windowEnd)
    (placed : Places config excerpt checked candidate)
    (replaced : Places config further checked other) :
    candidate.Shifts (further.margin - excerpt.margin) other := by
  have ordered := checked.span.ordered
  have first_eq := Excerpt.column_eq window bounded held.1 (by omega)
  have last_eq := Excerpt.column_eq window bounded (by omega) held.2
  have next_first_eq := Excerpt.column_eq next bounded next_held.1 (by omega)
  have next_last_eq := Excerpt.column_eq next bounded (by omega) next_held.2
  have bounds := Excerpt.rebase_bounds window bounded held.1 held.2
  have next_bounds := Excerpt.rebase_bounds next bounded next_held.1 next_held.2
  have length := Span.length_eq bounds.1 bounds.2.2.1
  have next_length := Span.length_eq next_bounds.1 next_bounds.2.2.1
  have same_length : other.span.length = candidate.span.length := by
    rw [placed.span, replaced.span, length, next_length]
    omega
  refine ⟨⟨?_, ?_⟩, ?_⟩
  · rw [placed.span, replaced.span]
    change further.column _ = excerpt.column _ + _
    simp only [Excerpt.margin]
    omega
  · rw [placed.span, replaced.span]
    change further.column _ = excerpt.column _ + _
    simp only [Excerpt.margin]
    omega
  · exact placed.same_label replaced rfl rfl same_length

/-- Labels that are placed over two excerpts merge into shifted segments. -/
theorem segments_shift_of_places {records : List CheckedLabel}
    (held : ∀ checked ∈ records, excerpt.windowStart ≤ checked.span.first ∧
      checked.span.last < excerpt.windowEnd)
    (next_held : ∀ checked ∈ records,
      further.windowStart ≤ checked.span.first ∧
        checked.span.last < further.windowEnd)
    {candidates others : List Candidate}
    (fits : List.Forall₂ (Places config excerpt) records candidates)
    (refits : List.Forall₂ (Places config further) records others)
    {splitEqual : Bool} {segments moved : List Segment}
    (merged : mergeOverlaps splitEqual candidates = .ok segments)
    (remerged : mergeOverlaps splitEqual others = .ok moved) :
    List.Forall₂ (Segment.Shifts (further.margin - excerpt.margin)) segments
      moved := by
  have shifted : List.Forall₂ (fun candidate other =>
      candidate.Shifts (further.margin - excerpt.margin) other ∧
        other.index = candidate.index) candidates others := by
    have sources : ∀ checked ∈ records, checked ∈ records := fun _ => id
    refine forall₂_compose fits.flip
      ((List.forall₂_and_left _ _).mpr ⟨sources, refits⟩) ?_
    rintro candidate checked other placed ⟨member, replaced⟩
    exact ⟨shifts_of_places bounded window next (held checked member)
      (next_held checked member) placed replaced,
      replaced.index.trans placed.index.symm⟩
  have sorted := forall₂_mergeSort (fun _ _ _ _ here there =>
    here.1.toMoves.notAfter_eq there.1.toMoves here.2 there.2) shifted
  obtain ⟨others, made, shifts⟩ :=
    exists_merge_shifts (sorted.imp fun _ _ both => both.1) merged
  obtain rfl : others = moved := Except.ok.inj (made.symm.trans remerged)
  exact shifts

end Shifting

section Trimming

variable {draft : Draft} {trimInput : Bool}

theorem check_trimming : (draft.trimming trimInput).check = draft.check :=
  rfl

theorem records_trimming : (draft.trimming trimInput).records = draft.records :=
  rfl

/-- The window around all labels of a draft. -/
theorem excerpt_trimming_true :
    (draft.trimming true).excerpt draft.records =
      Excerpt.ofSpans draft.text
        (draft.labels.map fun label => label.finalSpan draft.text)
        draft.config.trimMode draft.config.trimPadding := by
  rw [← spans_records]
  rfl

theorem excerpt_trimming_false :
    (draft.trimming false).excerpt draft.records =
      Excerpt.untrimmed draft.text :=
  rfl

/-- Whether the text is trimmed makes no difference to what a label becomes over
a given excerpt. -/
theorem Places.of_trimming {excerpt : Excerpt} {checked : CheckedLabel}
    {candidate : Candidate}
    (placed : Places (draft.trimming trimInput).config excerpt checked
      candidate) : Places draft.config excerpt checked candidate where
  span := placed.span
  index := placed.index
  position := placed.position
  offset := placed.offset
  length := placed.length
  wraps := ⟨placed.wraps.message, placed.wraps.children,
    placed.wraps.caretColor, placed.wraps.highlightColor⟩

/-- The records of a draft lie in its window, trimmed or not. -/
theorem records_held (trimInput : Bool) (nonempty : draft.text ≠ [])
    (bounded : (draft.text.length : Int) + 8 ≤ maxPosition) :
    ((draft.trimming trimInput).excerpt draft.records).Windows draft.text ∧
      ∀ checked ∈ draft.records,
        ((draft.trimming trimInput).excerpt draft.records).windowStart ≤
            checked.span.first ∧
          checked.span.last <
            ((draft.trimming trimInput).excerpt draft.records).windowEnd := by
  let switched := draft.trimming trimInput
  obtain ⟨window, holds⟩ :=
    windows_excerpt (show switched.text ≠ [] from nonempty)
      (show (draft.text.length : Int) ≤ maxPosition by omega)
  refine ⟨window, ?_⟩
  intro checked member
  obtain ⟨label, label_mem, index, rfl⟩ := exists_label_of_mem_records member
  exact holds label label_mem

end Trimming

/-- Trimming only shifts a report: with trimming and without it a draft is
finished with the same segments, except that those of the trimmed report stand
further right by the length of the leading ellipsis less the start of the
window. -/
theorem finish_trimming_shifts {draft : Draft} {report : Report}
    (bounded : (draft.text.length : Int) + 8 ≤ maxPosition)
    (finished : draft.finish = .ok report) :
    let excerpt := Excerpt.ofSpans draft.text
      (draft.labels.map fun label => label.finalSpan draft.text)
      draft.config.trimMode draft.config.trimPadding
    ∃ trimmed whole, (draft.trimming true).finish = .ok trimmed ∧
      (draft.trimming false).finish = .ok whole ∧
      List.Forall₂
        (Segment.Shifts (excerpt.lead.length - excerpt.windowStart))
        whole.segments trimmed.segments := by
  intro excerpt
  obtain ⟨checked, checking, _⟩ := finish_eq_ok_iff.mp finished
  obtain ⟨_, nonempty, _, _⟩ := check_eq_ok_iff.mp checking
  have finishes (trimInput : Bool) :
      ∃ report, (draft.trimming trimInput).finish = .ok report :=
    exists_finish_of_check bounded (check_trimming.trans checking)
  obtain ⟨trimmed, trimmed_eq⟩ := finishes true
  obtain ⟨whole, whole_eq⟩ := finishes false
  refine ⟨trimmed, whole, trimmed_eq, whole_eq, ?_⟩
  obtain ⟨others, refits, remerged, _⟩ := exists_places_of_finish trimmed_eq
  obtain ⟨candidates, fits, merged, _⟩ := exists_places_of_finish whole_eq
  rw [records_trimming] at fits refits
  obtain ⟨next, next_held⟩ := records_held true nonempty bounded
  obtain ⟨window, held⟩ := records_held false nonempty bounded
  have shifts := segments_shift_of_places bounded window next held next_held
    (fits.imp fun _ _ => Places.of_trimming)
    (refits.imp fun _ _ => Places.of_trimming) merged remerged
  rw [excerpt_trimming_true, excerpt_trimming_false] at shifts
  have margin : excerpt.margin - (Excerpt.untrimmed draft.text).margin =
      excerpt.lead.length - excerpt.windowStart := by
    simp [Excerpt.margin, Excerpt.untrimmed]
  rwa [margin] at shifts

/-- Two labels that overlap near the end of a text, shown without context. -/
theorem finish_trimming_shifts_overlapping :
    let draft : Draft := {
      text := "let total = price".toList
      config := { trimPadding := ⟨0, 0⟩, boundsPolicy := .truncateSilent }
      labels := [
        { span := ⟨12, 30, by decide⟩, message := "cost".toList },
        { span := ⟨10, 12, by decide⟩, message := "sum".toList }] }
    (draft.text.length : Int) + 8 ≤ maxPosition ∧
      ∃ trimmed whole, (draft.trimming true).finish = .ok trimmed ∧
        (draft.trimming false).finish = .ok whole ∧
        trimmed.text = "... = price".toList ∧
        List.Forall₂ (Segment.Shifts (-6)) whole.segments trimmed.segments := by
  intro draft
  have bounded : (draft.text.length : Int) + 8 ≤ maxPosition := by
    unfold draft
    decide
  have echoed : draft.finish.toOption.map Report.text =
      some "... = price".toList := by
    unfold draft
    cbv
  have margin : ((Excerpt.ofSpans draft.text
      (draft.labels.map fun label => label.finalSpan draft.text)
      draft.config.trimMode draft.config.trimPadding).margin) = -6 := by
    unfold draft
    cbv
  obtain ⟨report, finished, shown⟩ := exists_eq_ok_of_map echoed
  obtain ⟨trimmed, whole, trimmed_eq, whole_eq, shifts⟩ :=
    finish_trimming_shifts bounded finished
  obtain rfl : report = trimmed :=
    Except.ok.inj (finished.symm.trans trimmed_eq)
  rw [← Excerpt.margin, margin] at shifts
  exact ⟨bounded, report, whole, trimmed_eq, whole_eq, shown, shifts⟩

end Draft

end CaretReport
