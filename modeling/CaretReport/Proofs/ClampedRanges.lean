import CaretReport.Proofs.DraftOutcome

/-!
# Drafts with clamped ranges

A label is placed by its final span, and its range counts for nothing else once
the checks have passed, except that a policy may ask for a notice above the
message.  So truncating ranges silently gives the same report as clamping them
beforehand and rejecting what still leaves the text, and the policy makes no
difference to labels that lie inside the text.
-/

namespace CaretReport

namespace Label

/-- The label with another range. -/
def withSpan (label : Label) (span : Span) : Label :=
  { label with span := span }

/-- The range of the label, held inside a text. -/
def clampedSpan (text : List Char) (label : Label) : Span :=
  label.span.clamp ((text.length : Int) - 1)

variable {policy : BoundsPolicy} {text : List Char} {label : Label}

theorem leaves_eq_false_iff :
    label.leaves text = false ↔
      0 ≤ label.span.first ∧ label.span.last < text.length := by
  rw [leaves, decide_eq_false_iff_not]
  omega

theorem leaves_clamped (nonempty : text ≠ []) :
    (label.withSpan (label.clampedSpan text)).leaves text = false := by
  rw [leaves_eq_false_iff]
  exact label.span.clamp_inside_text nonempty

/-- Clamping does not move a range that lies inside the text. -/
theorem clampedSpan_of_inside (inside : label.leaves text = false) :
    label.clampedSpan text = label.span := by
  have ordered := label.span.ordered
  rw [leaves_eq_false_iff] at inside
  have nonneg : 0 ≤ (text.length : Int) - 1 := by omega
  exact Span.clamp_of_covers nonneg
    ((Span.covers_upTo_iff nonneg _).mpr (by omega))

theorem finalSpan_eq_clampedSpan (label : Label) (text : List Char) :
    label.finalSpan text = label.clampedSpan text := by
  rw [finalSpan]
  cases leaves : label.leaves text with
  | true => rfl
  | false => exact (clampedSpan_of_inside leaves).symm

/-- Under a policy the label passes its check, is placed by the given span, and
gets no notice above its message. -/
structure Settles (policy : BoundsPolicy) (text : List Char) (label : Label)
    (span : Span) : Prop where
  accepted : label.Accepted policy text
  final : label.finalSpan text = span
  quiet : label.leaves text = true → policy ≠ .truncateIndicate

/-- Truncating silently places every label by its clamped range. -/
theorem settles_truncateSilent (message : label.message ≠ [])
    (children : ∀ child ∈ label.children, child.message ≠ []) :
    label.Settles .truncateSilent text (label.clampedSpan text) where
  accepted := ⟨fun _ => rfl, message, children⟩
  final := label.finalSpan_eq_clampedSpan text
  quiet := by
    intro _ indicates
    cases indicates

/-- A label inside the text is placed by its range, whatever the policy. -/
theorem settles_of_inside (inside : label.leaves text = false)
    (message : label.message ≠ [])
    (children : ∀ child ∈ label.children, child.message ≠ []) :
    label.Settles policy text label.span where
  accepted := by
    refine ⟨?_, message, children⟩
    intro leaves
    rw [inside] at leaves
    cases leaves
  final := by rw [finalSpan_eq_clampedSpan, clampedSpan_of_inside inside]
  quiet := by
    intro leaves
    rw [inside] at leaves
    cases leaves

end Label

/-- The options with another policy for labels that leave the text. -/
def Config.withPolicy (config : Config) (policy : BoundsPolicy) : Config :=
  { config with boundsPolicy := policy }

namespace Draft

/-- The draft with another policy for labels that leave the text. -/
def withPolicy (draft : Draft) (policy : BoundsPolicy) : Draft :=
  draft.withConfig (draft.config.withPolicy policy)

/-- The draft with other ranges. -/
def withSpans (draft : Draft) (spanOf : Label → Span) : Draft :=
  { draft with
    labels := draft.labels.map fun label => label.withSpan (spanOf label) }

/-- Every candidate has its caret under its own span, whatever the excerpt. -/
theorem caretInside_of_places {config : Config} {excerpt : Excerpt}
    {checked : CheckedLabel} {candidate : Candidate}
    (placed : Places config excerpt checked candidate) :
    candidate.CaretInside := by
  have ordered := candidate.span.ordered
  have first_nonneg : 0 ≤ candidate.span.first := by
    rw [placed.span]
    exact satAdd_nonneg _ _
  have last_le : candidate.span.last ≤ maxPosition := by
    rw [placed.span]
    exact satAdd_le_maxPosition _ _
  have width : 1 ≤ candidate.span.length ∧
      candidate.span.length ≤ candidate.span.last - candidate.span.first + 1 := by
    simp only [Span.length, satAdd, satSub, maxPosition] at *
    omega
  have caret := caretOffset_bounds width.1
  rw [← placed.position] at caret
  exact ⟨caret.1, by omega⟩

/-- What follows the checks of a draft never fails. -/
theorem exists_assemble_eq_ok (draft : Draft) (checked : List CheckedLabel) :
    ∃ report, draft.assemble checked = .ok report := by
  obtain ⟨candidates, placing⟩ : ∃ candidates,
      checked.mapM (candidate draft.config (draft.excerpt checked)) =
        .ok candidates :=
    exists_mapM_eq_ok fun item _ => exists_candidate_eq_ok _ _ item
  have inside : ∀ candidate ∈ candidates, candidate.CaretInside := by
    intro candidate member
    obtain ⟨item, _, made⟩ := exists_source_of_mapM placing member
    exact caretInside_of_places (places_of_candidate made)
  obtain ⟨segments, merged⟩ : ∃ segments,
      mergeOverlaps draft.config.splitOnEqualStart candidates = .ok segments :=
    exists_mergeOverlaps_eq_ok inside
  exact ⟨_, bind_eq_ok_iff.mpr ⟨candidates, mapError_eq_ok_iff.mpr placing,
    bind_eq_ok_iff.mpr ⟨segments, mapError_eq_ok_iff.mpr merged, rfl⟩⟩⟩

theorem notedMessage_of_quiet (config : Config) {policy : BoundsPolicy}
    {truncated : Bool} (quiet : truncated = true → policy ≠ .truncateIndicate)
    (message : Message) :
    notedMessage (config.withPolicy policy) truncated message =
      .ok message := by
  refine if_neg ?_
  rw [Bool.and_eq_true, beq_iff_eq]
  rintro ⟨truncates, indicates⟩
  exact quiet truncates indicates

/-- A label becomes the same candidate under any policy and with any range, as
long as it is placed by one span. -/
theorem candidate_withSpan (config : Config) (excerpt : Excerpt)
    {policy other : BoundsPolicy} {text : List Char} {label : Label}
    {range span : Span} (settles : label.Settles policy text span)
    (resettles : (label.withSpan range).Settles other text span) (index : Nat) :
    candidate (config.withPolicy other) excerpt
        ((label.withSpan range).record text index) =
      candidate (config.withPolicy policy) excerpt
        (label.record text index) := by
  simp only [candidate, Label.record, settles.final, resettles.final,
    notedMessage_of_quiet config settles.quiet,
    notedMessage_of_quiet config resettles.quiet]
  rfl

section Settled

variable {draft : Draft} {policy other : BoundsPolicy}
variable {spanOf place : Label → Span}
variable
  (settles : ∀ label ∈ draft.labels,
    label.Settles policy draft.text (place label))
  (resettles : ∀ label ∈ draft.labels,
    (label.withSpan (spanOf label)).Settles other draft.text (place label))

include settles resettles

theorem spans_withSpans :
    ((draft.withSpans spanOf).withPolicy other).records.map CheckedLabel.span =
      (draft.withPolicy policy).records.map CheckedLabel.span := by
  rw [spans_records, spans_records]
  change (draft.labels.map _).map _ = _
  rw [List.map_map]
  refine List.map_congr_left fun label member => ?_
  exact (resettles label member).final.trans (settles label member).final.symm

theorem candidates_withSpans (excerpt : Excerpt) :
    ((draft.withSpans spanOf).withPolicy other).records.mapM
        (candidate (draft.config.withPolicy other) excerpt) =
      (draft.withPolicy policy).records.mapM
        (candidate (draft.config.withPolicy policy) excerpt) := by
  apply mapM_eq_of_forall₂
  unfold records
  change List.Forall₂ _ ((draft.labels.map _).zipIdx.map _)
    (draft.labels.zipIdx.map _)
  rw [List.zipIdx_map, List.map_map, List.forall₂_map_left_iff,
    List.forall₂_map_right_iff, List.forall₂_same]
  rintro ⟨label, index⟩ member
  have label_mem := List.fst_mem_of_mem_zipIdx member
  exact candidate_withSpan draft.config excerpt (settles label label_mem)
    (resettles label label_mem) index

theorem assemble_withSpans :
    ((draft.withSpans spanOf).withPolicy other).assemble
        ((draft.withSpans spanOf).withPolicy other).records =
      (draft.withPolicy policy).assemble (draft.withPolicy policy).records := by
  have excerpt_eq : ((draft.withSpans spanOf).withPolicy other).excerpt
      ((draft.withSpans spanOf).withPolicy other).records =
        (draft.withPolicy policy).excerpt (draft.withPolicy policy).records := by
    rw [excerpt, excerpt, spans_withSpans settles resettles]
    rfl
  have candidates_eq := candidates_withSpans settles resettles
    ((draft.withPolicy policy).excerpt (draft.withPolicy policy).records)
  unfold assemble
  rw [excerpt_eq]
  change (Except.mapError _
    (List.mapM (candidate (draft.config.withPolicy other) _) _) >>= _) = _
  rw [candidates_eq]
  rfl

/-- A draft is finished alike under two policies and with two choices of ranges,
as long as either places every label by the same span and without a notice. -/
theorem finish_withSpans (nonempty : draft.text ≠ []) :
    ((draft.withSpans spanOf).withPolicy other).finish =
      (draft.withPolicy policy).finish := by
  by_cases unlabelled : draft.labels = []
  · have none : (draft.withSpans spanOf).labels = [] :=
      List.map_eq_nil_iff.mpr unlabelled
    have rejected : (draft.withPolicy policy).check = .error .noLabels :=
      if_pos unlabelled
    have rerejected : ((draft.withSpans spanOf).withPolicy other).check =
        .error .noLabels := if_pos none
    rw [finish, finish, rejected, rerejected]
    rfl
  · have checking : (draft.withPolicy policy).check =
        .ok (draft.withPolicy policy).records :=
      check_eq_ok_iff.mpr ⟨unlabelled, nonempty,
        fun label member => (settles label member).accepted, rfl⟩
    have rechecking : ((draft.withSpans spanOf).withPolicy other).check =
        .ok ((draft.withSpans spanOf).withPolicy other).records := by
      refine check_eq_ok_iff.mpr ⟨?_, nonempty, ?_, rfl⟩
      · intro none
        exact unlabelled (List.map_eq_nil_iff.mp none)
      · intro label member
        obtain ⟨source, source_mem, rfl⟩ := List.mem_map.mp member
        exact (resettles source source_mem).accepted
    rw [finish, finish, checking, rechecking]
    exact assemble_withSpans settles resettles

end Settled

/-- The draft with every range clamped to its text. -/
def clamped (draft : Draft) : Draft :=
  draft.withSpans (Label.clampedSpan draft.text)

theorem withSpans_span (draft : Draft) : draft.withSpans Label.span = draft := by
  have same : (draft.labels.map fun label => label.withSpan label.span) =
      draft.labels := List.map_id _
  rw [withSpans, same]

/-- Truncating silently is clamping beforehand: the draft is finished as the one
with clamped ranges whose policy rejects what leaves the text, and it is finished
if it has a label.  For labels inside the text the policy makes no difference. -/
theorem finish_truncateSilent_eq (draft : Draft) (nonempty : draft.text ≠ [])
    (messages : ∀ label ∈ draft.labels, label.message ≠ [] ∧
      ∀ child ∈ label.children, child.message ≠ []) :
    (draft.withPolicy .truncateSilent).finish =
        (draft.clamped.withPolicy .reject).finish ∧
      (draft.labels ≠ [] →
        ∃ report, (draft.withPolicy .truncateSilent).finish = .ok report) ∧
      ((∀ label ∈ draft.labels,
          0 ≤ label.span.first ∧ label.span.last < draft.text.length) →
        ∀ policy, (draft.withPolicy policy).finish =
          (draft.withPolicy .truncateSilent).finish) := by
  have settles : ∀ label ∈ draft.labels,
      label.Settles .truncateSilent draft.text
        (label.clampedSpan draft.text) := fun label member =>
    Label.settles_truncateSilent (messages label member).1
      (messages label member).2
  refine ⟨?_, ?_, ?_⟩
  · have resettles : ∀ label ∈ draft.labels,
        (label.withSpan (label.clampedSpan draft.text)).Settles .reject
          draft.text (label.clampedSpan draft.text) := fun label member =>
      Label.settles_of_inside (Label.leaves_clamped nonempty)
        (messages label member).1 (messages label member).2
    exact (finish_withSpans settles resettles nonempty).symm
  · intro labelled
    have checking : (draft.withPolicy .truncateSilent).check =
        .ok (draft.withPolicy .truncateSilent).records :=
      check_eq_ok_iff.mpr ⟨labelled, nonempty,
        fun label member => (settles label member).accepted, rfl⟩
    rw [finish, checking]
    exact exists_assemble_eq_ok _ _
  · intro inside policy
    have resettles : ∀ label ∈ draft.labels,
        (label.withSpan label.span).Settles policy draft.text
          (label.clampedSpan draft.text) := by
      intro label member
      have stays := Label.leaves_eq_false_iff.mpr (inside label member)
      rw [Label.clampedSpan_of_inside stays]
      exact Label.settles_of_inside stays (messages label member).1
        (messages label member).2
    have same := finish_withSpans settles resettles nonempty
    rwa [withSpans_span] at same

/-- A range before the text, one that runs past any position, and one inside. -/
theorem finish_truncateSilent_eq_farRanges :
    let inside : Label := { span := ⟨4, 6, by decide⟩, message := ['i'] }
    let draft : Draft := {
      text := "let total".toList
      labels := [
        inside,
        { span := ⟨-9, -3, by decide⟩, message := ['b'] },
        { span := ⟨5, 9223372036854775899, by decide⟩
          message := ['p']
          children := [{ message := ['c'] }] }] }
    let inner : Draft := { draft with labels := [inside] }
    draft.clamped.labels.map Label.span =
        [⟨4, 6, by decide⟩, ⟨0, 0, by decide⟩, ⟨5, 8, by decide⟩] ∧
      (∃ report, (draft.withPolicy .truncateSilent).finish = .ok report ∧
        (draft.clamped.withPolicy .reject).finish = .ok report) ∧
      ∃ report, ∀ policy, (inner.withPolicy policy).finish = .ok report := by
  intro inside draft inner
  have nonempty : draft.text ≠ [] := by
    unfold draft
    decide
  have messages : ∀ label ∈ draft.labels, label.message ≠ [] ∧
      ∀ child ∈ label.children, child.message ≠ [] := by
    unfold draft inside
    decide
  have clamped : draft.clamped.labels.map Label.span =
      [⟨4, 6, by decide⟩, ⟨0, 0, by decide⟩, ⟨5, 8, by decide⟩] := by
    unfold draft inside
    decide
  obtain ⟨same, finishes, _⟩ := finish_truncateSilent_eq draft nonempty messages
  obtain ⟨report, finished⟩ := finishes (List.cons_ne_nil _ _)
  have inner_messages : ∀ label ∈ inner.labels, label.message ≠ [] ∧
      ∀ child ∈ label.children, child.message ≠ [] := by
    unfold inner inside
    decide
  have stays : ∀ label ∈ inner.labels,
      0 ≤ label.span.first ∧ label.span.last < inner.text.length := by
    unfold inner inside draft
    decide
  obtain ⟨_, inner_finishes, alike⟩ :=
    finish_truncateSilent_eq inner nonempty inner_messages
  obtain ⟨other, inner_finished⟩ := inner_finishes (List.cons_ne_nil _ _)
  exact ⟨clamped, ⟨report, finished, same ▸ finished⟩, other,
    fun policy => (alike stays policy).trans inner_finished⟩

end Draft

end CaretReport
