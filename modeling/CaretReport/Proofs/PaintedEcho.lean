import CaretReport.Proofs.LabelPlacement
import CaretReport.Proofs.VisibleText
import Mathlib

/-!
# The colours of an echoed text

The text above a segment is painted in the highlight colours of its labels.  Every
character is painted by the last coloured label over it, in the order in which the
segment holds its labels, and the paint is laid on in runs that are as long as
possible.
-/

namespace CaretReport

/-- The runs cut the text wherever its colour changes and nowhere else.  A position
has the colour of the last item that reaches it, and is bare if none does. -/
structure Paints {Item : Type} (reaches : Item → Int → Prop)
    (colored : List (Item × Rgb)) (text : List Char)
    (runs : List (Option Rgb × List Char)) : Prop where
  text_eq : runs.flatMap Prod.snd = text
  nonempty : ∀ run ∈ runs, run.2 ≠ []
  apart : runs.IsChain fun run next => run.1 ≠ next.1
  painted : ∀ (position : Nat) color character,
    (runChars runs)[position]? = some (color, character) →
      ∀ shade, color = some shade ↔
        ∃ before item after, colored = before ++ (item, shade) :: after ∧
          reaches item position ∧ ∀ later ∈ after, ¬ reaches later.1 position
  bare : ∀ (position : Nat) color character,
    (runChars runs)[position]? = some (color, character) →
      (color = none ↔ ∀ item ∈ colored, ¬ reaches item.1 position)

theorem paints_colorRuns (painted : List (Progression × Rgb)) (text : List Char) :
    Paints Progression.Visits painted text
      (colorRuns (paintChars (painted.map Highlight.paint) text)) := by
  have cuts := cutsAtColors_colorRuns
    (paintChars (painted.map Highlight.paint) text)
  constructor
  · rw [flatMap_snd_colorRuns, map_snd_paintChars]
  · exact cuts.nonempty
  · exact cuts.apart
  · intro position color character found shade
    rw [cuts.chars] at found
    rw [getElem?_paintChars_eq_some found]
    exact colorAt_eq_some_iff
  · intro position color character found
    rw [cuts.chars] at found
    rw [getElem?_paintChars_eq_some found]
    exact colorAt_eq_none_iff

namespace Paints

variable {Item Other : Type} {text : List Char}
  {runs : List (Option Rgb × List Char)}

/-- Items paint a text like the stretches that they stand for. -/
theorem of_map {reaches : Other → Int → Prop} {colored : List (Item × Rgb)}
    {stretch : Item → Other}
    (paints : Paints reaches (colored.map (Prod.map stretch id)) text runs) :
    Paints (fun item => reaches (stretch item)) colored text runs where
  text_eq := paints.text_eq
  nonempty := paints.nonempty
  apart := paints.apart
  painted position color character found shade := by
    rw [paints.painted position color character found shade]
    constructor
    · rintro ⟨front, other, back, split, reached, missed⟩
      obtain ⟨before, here, rfl, rfl, rest⟩ := List.map_eq_append_iff.mp split
      obtain ⟨⟨item, _⟩, after, rfl, same, rfl⟩ := List.map_eq_cons_iff.mp rest
      obtain ⟨rfl, rfl⟩ := Prod.mk.inj same
      refine ⟨before, item, after, rfl, reached, fun later member => ?_⟩
      exact missed _ (List.mem_map_of_mem member)
    · rintro ⟨before, item, after, rfl, reached, missed⟩
      refine ⟨before.map (Prod.map stretch id), stretch item,
        after.map (Prod.map stretch id), by simp, reached, ?_⟩
      intro later member
      obtain ⟨source, found, rfl⟩ := List.mem_map.mp member
      exact missed source found
  bare position color character found := by
    rw [paints.bare position color character found, List.forall_mem_map]
    rfl

theorem congr {reaches another : Item → Int → Prop} {colored : List (Item × Rgb)}
    (paints : Paints reaches colored text runs)
    (same : ∀ item ∈ colored, ∀ position,
      reaches item.1 position ↔ another item.1 position) :
    Paints another colored text runs where
  text_eq := paints.text_eq
  nonempty := paints.nonempty
  apart := paints.apart
  painted position color character found shade := by
    rw [paints.painted position color character found shade]
    refine exists_congr fun before => exists_congr fun item =>
      exists_congr fun after => and_congr_right ?_
    rintro rfl
    refine and_congr (same (item, shade) (by simp) position) ?_
    refine forall₂_congr fun later member => not_congr ?_
    exact same later (by simp [member]) position
  bare position color character found := by
    rw [paints.bare position color character found]
    exact forall₂_congr fun item member => not_congr (same item member position)

end Paints

namespace Segment

/-- The labels with a highlight colour, in the order of the labels. -/
def coloredLabels (segment : Segment) : List (PlacedLabel × Rgb) :=
  segment.labels.filterMap fun label =>
    label.highlightColor.map fun color => (label, color)

/-- The positions that the highlight of a label passes. -/
def highlightPositions (segment : Segment) (label : PlacedLabel) : Progression :=
  .between (segment.highlightSpan label).first
    ((segment.highlightSpan label).last + 1)

theorem mem_labels_of_mem_coloredLabels {segment : Segment}
    {colored : PlacedLabel × Rgb} (member : colored ∈ segment.coloredLabels) :
    colored.1 ∈ segment.labels := by
  obtain ⟨label, found, same⟩ := List.mem_filterMap.mp member
  obtain ⟨color, _, rfl⟩ := Option.map_eq_some_iff.mp same
  exact found

theorem highlightsOf_eq (segment : Segment) :
    Report.highlightsOf segment =
      (segment.coloredLabels.map
        (Prod.map segment.highlightPositions id)).map Highlight.paint := by
  rw [Report.highlightsOf, highlights, coloredLabels, List.map_filterMap,
    List.map_filterMap, List.map_filterMap]
  congr 1
  funext label
  cases label.highlightColor <;> rfl

theorem visits_highlightPositions {segment : Segment} {label : PlacedLabel}
    {position : Int} : (segment.highlightPositions label).Visits position ↔
      (segment.highlightSpan label).contains position = true := by
  rw [highlightPositions, Progression.visits_between, Span.contains_iff,
    Int.lt_add_one_iff]

/-- The highlight of a label that a merge shows lies over what the label covers. -/
theorem Shows.highlightSpan_iff {segment : Segment} {candidate : Candidate}
    {label : PlacedLabel} (shows : segment.Shows candidate label)
    (anchored : candidate.Anchored) {position : Int} :
    (segment.highlightSpan label).contains position = true ↔
      label.Covers segment.first position := by
  have nonneg := anchored.first_nonneg
  have below := anchored.last_lt
  have ordered := candidate.span.ordered
  have starts := shows.starts
  have stops := shows.stops
  have first_eq : satAdd segment.first label.offset =
      segment.first + label.offset :=
    satAdd_eq_add (by omega) (by omega)
  have last_eq : satAdd (segment.first + label.offset) (label.length - 1) =
      segment.first + label.offset + label.length - 1 := by
    rw [satAdd_eq_add (by omega) (by omega)]
    omega
  rw [Span.contains_iff, highlightSpan, PlacedLabel.Covers]
  simp only [first_eq, last_eq]
  omega

end Segment

namespace Report

/-- A painted echo is a painted text, perhaps with the range behind it. -/
theorem echo_of_colorize {report : Report}
    (colorize : report.colorizeEchoedInput = true) (segment : Segment) :
    report.echo segment =
      paintText report.text (highlightsOf segment) ++
        if report.showRangeSuffix then rangeSuffix segment else [] := by
  simp only [echo, colorize, if_true]
  split
  · rfl
  · rw [List.append_nil]

theorem paints_echo (report : Report) (segment : Segment) :
    Paints (fun label position =>
        (segment.highlightSpan label).contains position = true)
      segment.coloredLabels report.text
      (colorRuns (paintChars (highlightsOf segment) report.text)) := by
  have paints := paints_colorRuns
    (segment.coloredLabels.map (Prod.map segment.highlightPositions id)) report.text
  rw [← segment.highlightsOf_eq] at paints
  exact paints.of_map.congr fun _ _ _ => Segment.visits_highlightPositions

end Report

end CaretReport
