import CaretReport.Proofs.DraftOutcome
import CaretReport.Proofs.LabelOrder
import CaretReport.Proofs.ParallelMerges
import CaretReport.Proofs.PlainReport
import Mathlib

/-!
# The choice of colours

Whether carets and the echoed text are coloured decides the colours of the
labels and nothing else.  Labels without their colours are wrapped, placed and
merged alike; only equal labels of one group would be merged into one, and with
different spans no two labels are equal, in colour or without.  So both choices
finish with reports that differ in colours alone, and those show the same.
-/

namespace CaretReport

/-- Labels that agree without their colours stand in the same columns. -/
theorem PlacedLabel.columns_eq {label other : PlacedLabel}
    (same : label.bare = other.bare) : label.position = other.position ∧
      label.offset = other.offset ∧ label.length = other.length := by
  rw [bare, bare, mk.injEq] at same
  exact ⟨same.1, same.2.1, same.2.2.1⟩

theorem PlacedLabel.bare_rebased (label : PlacedLabel) (delta : Int) :
    (label.rebased delta).bare = label.bare.rebased delta := by
  unfold rebased
  split <;> rfl

/-- The other candidate differs in the colours of its label at most. -/
structure Candidate.Recolors (candidate other : Candidate) : Prop
    extends Candidate.Moves 0 candidate other where
  index : other.index = candidate.index
  label : other.label.bare = candidate.label.bare

namespace Group

variable {group other : Group}

theorem forall₂_placed (beside : group.Beside Candidate.Recolors other) :
    List.Forall₂ (fun label next => next.bare = label.bare)
      (group.members.map group.placed) (other.members.map other.placed) := by
  rw [List.forall₂_map_left_iff, List.forall₂_map_right_iff]
  refine beside.imp fun candidate next recolors => ?_
  rw [placed, placed, PlacedLabel.bare_rebased, PlacedLabel.bare_rebased,
    recolors.label,
    beside.distance_eq (fun _ _ recolors => recolors.toMoves) recolors]

/-- Groups whose labels differ without their colours keep the same labels, up to
their colours. -/
theorem forall₂_orderedLabels (beside : group.Beside Candidate.Recolors other)
    (distinct : ((group.members.map group.placed).map PlacedLabel.bare).Nodup) :
    List.Forall₂ (fun label next => next.bare = label.bare)
      group.orderedLabels other.orderedLabels := by
  have placed := forall₂_placed beside
  have bare_eq : (other.members.map other.placed).map PlacedLabel.bare =
      (group.members.map group.placed).map PlacedLabel.bare :=
    map_eq_map_of_forall₂ placed.flip
  have other_distinct :
      ((other.members.map other.placed).map PlacedLabel.bare).Nodup := by
    rwa [bare_eq]
  rw [orderedLabels_eq_mergeSort (List.Nodup.of_map _ distinct),
    orderedLabels_eq_mergeSort (List.Nodup.of_map _ other_distinct)]
  refine forall₂_mergeSort ?_ placed
  intro label next earlier later here there
  calc
    label.notAfter earlier = label.bare.notAfter earlier.bare := rfl
    _ = next.bare.notAfter later.bare := by rw [here, there]
    _ = next.notAfter later := rfl

/-- Labels of different spans differ, with their colours or without. -/
theorem nodup_bare_placed {segment : Segment}
    (first : segment.first = group.first)
    (gathers : segment.Gathers group.members)
    (anchored : ∀ member ∈ group.members, member.Anchored)
    (different : group.members.Pairwise fun candidate other =>
      candidate.span ≠ other.span) :
    ((group.members.map group.placed).map PlacedLabel.bare).Nodup := by
  have shown := shows_placed first gathers anchored
  refine List.pairwise_map.mpr (List.pairwise_map.mpr
    (different.imp_of_mem ?_))
  intro candidate next found next_found apart same
  have shows := shown candidate found
  have next_shows := shown next next_found
  obtain ⟨_, offset, length⟩ := PlacedLabel.columns_eq same
  have first_eq : candidate.span.first = next.span.first := by
    rw [← shows.starts, ← next_shows.starts, offset]
  have last_eq : candidate.span.last = next.span.last := by
    rw [← shows.stops, ← next_shows.stops, offset, length]
  exact apart (Span.ext first_eq last_eq)

end Group

/-- Candidates that differ in colours merge into segments that differ in colours,
if no two of them have the same span. -/
theorem exists_merge_bare {splitEqual : Bool}
    {candidates others : List Candidate}
    (recolors : List.Forall₂ Candidate.Recolors candidates others)
    (anchored : ∀ candidate ∈ candidates, candidate.Anchored)
    (different : candidates.Pairwise fun candidate other =>
      candidate.span ≠ other.span) {segments : List Segment}
    (merged : mergeOverlaps splitEqual candidates = .ok segments) :
    ∃ recolored, mergeOverlaps splitEqual others = .ok recolored ∧
      recolored.map Segment.bare = segments.map Segment.bare := by
  have sorted := forall₂_mergeSort (fun _ _ _ _ here there =>
    here.toMoves.notAfter_eq there.toMoves here.index there.index) recolors
  have labels : ∀ group ∈ groupsOf splitEqual candidates, ∀ other : Group,
      group.Beside Candidate.Recolors other →
        List.Forall₂ (fun label next => next.bare = label.bare)
          group.orderedLabels other.orderedLabels := by
    intro group found other beside
    obtain ⟨segment, _, closed, gathers⟩ :=
      exists_segment_of_mem_groupsOf merged found
    apply Group.forall₂_orderedLabels beside
    -- Only equal labels are merged into one, and here none are equal.
    apply Group.nodup_bare_placed (Segment.fields_of_ofLabels? closed).1 gathers
    · intro member inside
      exact anchored member (exists_group_iff.mp ⟨group, found, inside⟩)
    · exact pairwise_members_of_pairwise (fun _ _ => Ne.symm) different found
  obtain ⟨recolored, made, besides⟩ := exists_merge_beside
    (fun label next (same : next.bare = label.bare) =>
      (PlacedLabel.columns_eq same).1)
    (fun _ _ recolors => recolors.toMoves) sorted labels merged
  refine ⟨recolored, made, ?_⟩
  apply map_eq_map_of_forall₂
  refine (besides.imp fun segment next beside => ?_).flip
  have labels_eq : next.bare.labels = segment.bare.labels :=
    map_eq_map_of_forall₂ beside.labels.flip
  have shifts : segment.bare.Shifts 0 next.bare :=
    ⟨beside.first, beside.last, labels_eq⟩
  exact shifts.eq_of_zero

namespace Draft

/-- No character of the text or of a message starts an escape sequence. -/
structure EscapeFree (draft : Draft) : Prop where
  text : escapeChar ∉ draft.text
  messages : ∀ label ∈ draft.labels, escapeChar ∉ label.message
  children : ∀ label ∈ draft.labels, ∀ child ∈ label.children,
    escapeChar ∉ child.message

/-- The draft with other choices about the colours of the carets and of the
echoed text. -/
def recolored (draft : Draft) (enableCaretColor colorizeEchoedInput : Bool) :
    Draft :=
  draft.withConfig { draft.config with
    enableCaretColor := enableCaretColor
    colorizeEchoedInput := colorizeEchoedInput }

section Stripping

variable {draft : Draft} {report : Report}
variable (finished : draft.finish = .ok report) (free : draft.EscapeFree)

include finished free

/-- Without its escape sequences, the report of a draft is what is left of the
bare report. -/
theorem stripEscapes_of_finish :
    stripEscapes report.render = stripEscapes report.bare.render :=
  Report.stripEscapes_render_bare (escapeChar_not_mem_text finished free.text)
    (escapeChar_not_mem_texts finished free.messages free.children)

/-- Rendering gives the same, apart from escape sequences, for the report and for
the bare report; in particular, it fails for both or neither. -/
theorem map_stripEscapes_of_finish
    (bounded : (draft.text.length : Int) + 8 ≤ maxPosition) :
    report.render?.map stripEscapes =
      report.bare.render?.map stripEscapes := by
  apply Report.map_stripEscapes_render?
  · exact escapeChar_not_mem_text finished free.text
  · exact escapeChar_not_mem_texts finished free.messages free.children
  · intro segment member
    exact (liesIn_of_finish bounded finished segment member).worded

end Stripping

/-- Children are placed alike whatever their colours are. -/
theorem map_bare_children_eq {config other_config : Config}
    {parentColor otherColor : Option Rgb} {sources : List ChildLabel}
    {children others : List PlacedChild}
    (placing : sources.mapM (placeChild config parentColor) = .ok children)
    (replacing : sources.mapM (placeChild other_config otherColor) =
      .ok others)
    (width : other_config.maxChildLabelWidth = config.maxChildLabelWidth) :
    others.map PlacedChild.bare = children.map PlacedChild.bare := by
  have fits := (mapM_eq_ok_iff _ _ _).mp placing
  have refits := (mapM_eq_ok_iff _ _ _).mp replacing
  apply map_eq_map_of_forall₂
  refine forall₂_compose refits.flip fits ?_
  intro other source child remade made
  obtain ⟨message, wrapping, same⟩ := bind_eq_ok_iff.mp made
  obtain ⟨again, rewrapping, resame⟩ := bind_eq_ok_iff.mp remade
  rw [width] at rewrapping
  obtain rfl : again = message :=
    Except.ok.inj (rewrapping.symm.trans wrapping)
  obtain rfl := Except.ok.inj same
  obtain rfl := Except.ok.inj resame
  rfl

/-- Labels with different final spans become candidates with different spans. -/
theorem pairwise_span_ne {draft : Draft} {excerpt : Excerpt}
    {candidates : List Candidate} (window : excerpt.Windows draft.text)
    (bounded : (draft.text.length : Int) + 8 ≤ maxPosition)
    (stands : List.Forall₂ (draft.Stands excerpt) draft.labels.zipIdx candidates)
    (different : draft.labels.Pairwise fun label next =>
      label.finalSpan draft.text ≠ next.finalSpan draft.text) :
    candidates.Pairwise fun candidate next => candidate.span ≠ next.span := by
  rw [← List.zipIdx_map_fst 0 draft.labels, List.pairwise_map] at different
  refine pairwise_of_forall₂ stands ?_ different
  intro entry next candidate other stood other_stood spans same
  -- Both spans were moved by the distance between the window and the excerpt.
  obtain ⟨first, last⟩ := stood.ends_eq window bounded
  obtain ⟨other_first, other_last⟩ := other_stood.ends_eq window bounded
  rw [same] at first last
  apply spans
  ext
  · omega
  · omega

section Recoloring

variable {draft : Draft} {enableCaretColor colorizeEchoedInput : Bool}

/-- A label becomes the same under both choices, up to its colours. -/
theorem recolors_of_places {excerpt : Excerpt} {checked : CheckedLabel}
    {candidate other : Candidate}
    (placed : Places draft.config excerpt checked candidate)
    (replaced : Places (draft.recolored enableCaretColor colorizeEchoedInput).config
      excerpt checked other) : candidate.Recolors other := by
  have span : other.span = candidate.span := replaced.span.trans placed.span.symm
  obtain ⟨position, offset, length⟩ :=
    placed.same_columns replaced (congrArg Span.length span)
  have message := placed.wraps.same_message replaced.wraps rfl rfl
  have children := map_bare_children_eq placed.wraps.children
    replaced.wraps.children rfl
  refine ⟨⟨?_, ?_⟩, replaced.index.trans placed.index.symm, ?_⟩
  · rw [span, Int.add_zero]
  · rw [span, Int.add_zero]
  · rw [PlacedLabel.bare, PlacedLabel.bare, position, offset, length, message,
      children]

/-- Under both choices a draft is finished with the same report, up to its
colours. -/
theorem bare_eq_of_finish {report other : Report}
    (bounded : (draft.text.length : Int) + 8 ≤ maxPosition)
    (different : draft.labels.Pairwise fun label next =>
      label.finalSpan draft.text ≠ next.finalSpan draft.text)
    (finished : draft.finish = .ok report)
    (refinished : (draft.recolored enableCaretColor colorizeEchoedInput).finish =
      .ok other) : other.bare = report.bare := by
  obtain ⟨candidates, window, stands, merged⟩ := exists_standing bounded finished
  obtain ⟨others, _, restands, remerged⟩ := exists_standing
    (show ((draft.recolored enableCaretColor colorizeEchoedInput).text.length :
      Int) + 8 ≤ maxPosition from bounded) refinished
  obtain ⟨_, _, _, report_eq⟩ := exists_places_of_finish finished
  obtain ⟨_, _, _, other_eq⟩ := exists_places_of_finish refinished
  have recolors : List.Forall₂ Candidate.Recolors candidates others :=
    forall₂_compose stands.flip restands fun _ _ _ stood restood =>
      recolors_of_places stood.places restood.places
  have anchored : ∀ candidate ∈ candidates, candidate.Anchored := by
    intro candidate member
    obtain ⟨entry, _, stood⟩ := exists_source_of_forall₂ stands member
    exact stood.anchored window bounded
  have apart := pairwise_span_ne window bounded stands different
  obtain ⟨recolored, made, bare_eq⟩ :=
    exists_merge_bare recolors anchored apart merged
  obtain rfl : recolored = other.segments :=
    Except.ok.inj (made.symm.trans remerged)
  rw [other_eq, report_eq, Report.bare, Report.bare]
  simp only [bare_eq]
  rfl

end Recoloring

/-- The colours of a report never change what it shows: under both choices a
draft is rejected for the same reason or finished, and if nothing starts an
escape sequence and no two labels point at the same span, the two reports have
the same output, apart from escape sequences, and if one of them cannot be
rendered, neither can the other. -/
theorem finish_recolored_shows (draft : Draft)
    (enableCaretColor colorizeEchoedInput : Bool)
    (bounded : (draft.text.length : Int) + 8 ≤ maxPosition) :
    (∀ cause,
      (draft.recolored enableCaretColor colorizeEchoedInput).finish =
        .error cause ↔ draft.finish = .error cause) ∧
    ∀ report, draft.finish = .ok report →
      ∃ other, (draft.recolored enableCaretColor colorizeEchoedInput).finish =
          .ok other ∧
        (draft.EscapeFree →
          (draft.labels.Pairwise fun label next =>
            label.finalSpan draft.text ≠ next.finalSpan draft.text) →
          stripEscapes other.render = stripEscapes report.render ∧
            other.render?.map stripEscapes =
              report.render?.map stripEscapes) := by
  let recolored := draft.recolored enableCaretColor colorizeEchoedInput
  have rebounded : (recolored.text.length : Int) + 8 ≤ maxPosition := bounded
  have checks : recolored.check = draft.check := rfl
  constructor
  · intro cause
    rw [finish_eq_error_iff rebounded, finish_eq_error_iff bounded, checks]
  · intro report finished
    obtain ⟨checked, checking, _⟩ := finish_eq_ok_iff.mp finished
    obtain ⟨other, refinished⟩ :=
      exists_finish_of_check rebounded (checks.trans checking)
    refine ⟨other, refinished, ?_⟩
    intro free different
    have refree : recolored.EscapeFree :=
      ⟨free.text, free.messages, free.children⟩
    have bare_eq := bare_eq_of_finish bounded different finished refinished
    constructor
    · rw [stripEscapes_of_finish finished free,
        stripEscapes_of_finish refinished refree, bare_eq]
    · rw [map_stripEscapes_of_finish finished free bounded,
        map_stripEscapes_of_finish refinished refree rebounded, bare_eq]

/-- A label and its child in colour, beside a label without, on a text that is
painted or not. -/
theorem finish_recolored_shows_nested :
    let draft : Draft := {
      text := "a = b".toList
      config := { trimInput := false }
      labels := [
        { span := ⟨0, 4, by decide⟩, message := "sum of parts".toList
          styles := [.foreground (.rgb ⟨1, 2, 3⟩)]
          children := [{ message := "why".toList
                         caretColor := some ⟨4, 5, 6⟩ }] },
        { span := ⟨4, 4, by decide⟩, message := "part".toList }] }
    (draft.text.length : Int) + 8 ≤ maxPosition ∧ draft.EscapeFree ∧
      (draft.labels.Pairwise fun label next =>
        label.finalSpan draft.text ≠ next.finalSpan draft.text) ∧
      ∃ report other, draft.finish = .ok report ∧
        (draft.recolored true true).finish = .ok other ∧
        stripEscapes other.render = stripEscapes report.render ∧
        other.render?.map stripEscapes = report.render?.map stripEscapes ∧
        other.segments ≠ report.segments := by
  intro draft
  have bounded : (draft.text.length : Int) + 8 ≤ maxPosition := by
    unfold draft
    decide
  have free : draft.EscapeFree := by
    unfold draft
    exact ⟨by decide, by decide, by decide⟩
  have different : draft.labels.Pairwise fun label next =>
      label.finalSpan draft.text ≠ next.finalSpan draft.text := by
    unfold draft
    decide
  have carets : draft.finish.toOption.map (fun report =>
      report.segments.flatMap fun segment =>
        segment.labels.map PlacedLabel.caretColor) = some [none, none] := by
    unfold draft
    cbv
  have recolored_carets : (draft.recolored true true).finish.toOption.map
      (fun report => report.segments.flatMap fun segment =>
        segment.labels.map PlacedLabel.caretColor) =
          some [some ⟨1, 2, 3⟩, none] := by
    unfold draft
    cbv
  obtain ⟨report, finished, plain⟩ := exists_eq_ok_of_map carets
  obtain ⟨_, alike⟩ := finish_recolored_shows draft true true bounded
  obtain ⟨other, refinished, shows⟩ := alike report finished
  obtain ⟨again, made, colored⟩ := exists_eq_ok_of_map recolored_carets
  obtain rfl : again = other := Except.ok.inj (made.symm.trans refinished)
  refine ⟨bounded, free, different, report, again, finished, refinished,
    (shows free different).1, (shows free different).2, ?_⟩
  intro same
  rw [same, plain] at colored
  cases colored

end Draft

end CaretReport
