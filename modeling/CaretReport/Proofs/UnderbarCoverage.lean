import CaretReport.Proofs.CaretColumns
import CaretReport.Proofs.LabelPlacement

/-!
# What an underbar marks

The underbar of a segment runs from its first position to its last, and merging
leaves no position of a segment uncovered.  So the underbar marks exactly the
characters of the echoed text that a label covers, with a `┬` under every
caret.
-/

namespace CaretReport

/-- The text marks exactly the columns that the labels of a segment cover, with
a `┬` in the caret columns and rule in the others. -/
structure Segment.Underlines (segment : Segment) (text : List Char) : Prop where
  length_eq : (text.length : Int) = segment.last + 1
  marked : ∀ column : Int, 0 ≤ column →
    (shownAt text column ≠ ' ' ↔
      ∃ label ∈ segment.labels, label.Covers segment.first column)
  carets : ∀ column : Int, 0 ≤ column → shownAt text column ≠ ' ' →
    shownAt text column =
      if ∃ label ∈ segment.labels, segment.first + label.position = column then
        Glyph.down.char
      else
        Glyph.rule.char

/-- A text that is barred from the start of a segment to its end underlines the
segment, if its labels leave no position of it uncovered. -/
theorem underlines_of_barred {segment : Segment} {text : List Char}
    (barred : Barred segment.first
      (caretColumns segment.first segment.sortedLabels) text)
    (length : (text.length : Int) = segment.last + 1)
    (covered : ∀ position, segment.contains position = true ↔
      ∃ label ∈ segment.labels, label.Covers segment.first position) :
    segment.Underlines text := by
  have inside : ∀ column : Int, 0 ≤ column →
      (shownAt text column ≠ ' ' ↔ segment.contains column = true) := by
    intro column nonneg
    rw [Span.contains_iff]
    constructor
    · intro marked
      by_cases before : column < segment.first
      · exact absurd (barred.blank column nonneg before) marked
      · by_cases after : segment.last < column
        · exact absurd (shownAt_past (by omega)) marked
        · omega
    · rintro ⟨lower, upper⟩
      rw [barred.barred column lower (by omega)]
      split <;> decide
  have caret (column : Int) :
      column ∈ caretColumns segment.first segment.sortedLabels ↔
        ∃ label ∈ segment.labels, segment.first + label.position = column := by
    simp only [mem_caretColumns, Segment.mem_sortedLabels]
  constructor
  · exact length
  · intro column nonneg
    rw [inside column nonneg]
    exact covered column
  · intro column nonneg marked
    rw [inside column nonneg, Span.contains_iff] at marked
    rw [barred.barred column marked.1 (by omega)]
    simp only [caret]

/-- The first line drawn for a segment underlines it, if its labels leave no
position of it uncovered. -/
theorem draw_underlines {segment : Segment} (layout : Layout)
    (nonneg : 0 ≤ segment.first)
    (covered : ∀ position, segment.contains position = true ↔
      ∃ label ∈ segment.labels, label.Covers segment.first position) :
    ∃ line others, segment.draw layout = line :: others ∧
      segment.Underlines line.plain := by
  have carets : ∀ label ∈ segment.sortedLabels,
      0 ≤ label.position ∧ label.position ≤ segment.last - segment.first :=
    fun label member =>
      segment.carets_inside label (Segment.mem_sortedLabels.mp member)
  obtain ⟨text, shows, barred, length⟩ := underbar_shows nonneg segment.ordered
    Segment.pairwise_sortedLabels carets
  refine ⟨underbar segment.first segment.last segment.sortedLabels, _, rfl, ?_⟩
  rw [shows.plain_eq]
  exact underlines_of_barred barred length covered

namespace Draft

/-- Under every segment of a finished report, the underbar marks exactly the
labelled characters of the echoed text. -/
theorem finish_underlines {draft : Draft} {report : Report}
    (bounded : (draft.text.length : Int) + 8 ≤ maxPosition)
    (finished : draft.finish = .ok report) {segment : Segment}
    (member : segment ∈ report.segments) :
    segment.last < report.text.length ∧
      ∃ line others, report.linesOf segment = line :: others ∧
        segment.Underlines line.plain := by
  obtain ⟨candidates, merged, anchored, _, echoing⟩ :=
    exists_candidates_of_finish bounded finished
  obtain ⟨members, gathers, among, anchors⟩ :=
    exists_anchored_of_mem_segments merged anchored member
  constructor
  · obtain ⟨candidate, candidate_mem, contains⟩ :=
      (gathers.covered segment.last).mp
        ((Span.contains_iff _ _).mpr ⟨segment.ordered, Int.le_refl _⟩)
    obtain ⟨label, _, echoes⟩ := echoing candidate (among _ candidate_mem)
    rw [Span.contains_iff] at contains
    exact Int.lt_of_le_of_lt contains.2 echoes.inside
  · have nonneg := gathers.first_nonneg anchors
    exact draw_underlines report.layout nonneg fun _ =>
      gathers.contains_iff_covers anchors

/-- Three labels, of which two start together and are kept apart. -/
theorem finish_underlines_startingTogether :
    let draft : Draft := {
      text := "a = b + c".toList
      config := { trimInput := false }
      labels := [
        { span := ⟨0, 4, by decide⟩, message := "sum".toList },
        { span := ⟨0, 0, by decide⟩, message := "left".toList },
        { span := ⟨8, 8, by decide⟩, message := "right".toList }] }
    (draft.text.length : Int) + 8 ≤ maxPosition ∧
      ∃ report, draft.finish = .ok report ∧
        ∃ segment ∈ report.segments, segment.last < report.text.length ∧
          ∃ line others, report.linesOf segment = line :: others ∧
            segment.Underlines line.plain := by
  intro draft
  have bounded : (draft.text.length : Int) + 8 ≤ maxPosition := by
    unfold draft
    decide
  have counted : draft.finish.toOption.map
      (fun report => report.segments.length) = some 3 := by
    unfold draft
    cbv
  obtain ⟨report, finished, count⟩ := exists_eq_ok_of_map counted
  obtain ⟨segment, member⟩ := List.exists_mem_of_length_pos
    (show 0 < report.segments.length by omega)
  exact ⟨bounded, report, finished, segment, member,
    finish_underlines bounded finished member⟩

end Draft

end CaretReport
