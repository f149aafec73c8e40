import CaretReport.Proofs.DraftFaults
import CaretReport.Proofs.LabelPlacement
import CaretReport.Proofs.RunWidths
import Mathlib

/-!
# What becomes of a draft

A draft with faults is rejected for the first of them, as long as the message of
that fault can be written.  A draft without faults is always finished: every
message can be wrapped, every span can be placed, and the segments can be made.
The report that comes out can also be rendered, as long as its text and its
layout are narrow enough for a run of columns.
-/

namespace CaretReport

namespace Draft

theorem exists_wrapMessage_eq_ok (text : List Char) {width : Nat}
    (positive : 0 < width) (styles : List Style) :
    ∃ message, wrapMessage text width styles = .ok message ∧
      message.Worded := by
  obtain ⟨plain, wrapped, worded⟩ :=
    Message.exists_ofText?_eq_ok text (show (0 : Int) < width by omega)
  refine ⟨plain.withStyles styles .all, ?_,
    Message.worded_withStyles worded styles⟩
  rw [wrapMessage, wrapped]
  rfl

theorem exists_placeChild_eq_ok (config : Config) (parentColor : Option Rgb)
    (child : ChildLabel) :
    ∃ placed, placeChild config parentColor child = .ok placed ∧
      placed.message.Worded := by
  obtain ⟨message, wrapped, worded⟩ := exists_wrapMessage_eq_ok child.message
    config.maxChildLabelWidth_pos child.styles
  refine ⟨⟨message, resolveCaretColor child.caretColor child.styles
    config.enableCaretColor parentColor⟩, ?_, worded⟩
  rw [placeChild, wrapped]
  rfl

theorem exists_notedMessage_eq_ok (config : Config) (truncated : Bool)
    {message : Message} (worded : message.Worded) :
    ∃ noted, notedMessage config truncated message = .ok noted ∧
      noted.Worded := by
  obtain ⟨notice, made, notice_worded⟩ :=
    Line.exists_ofText?_eq_ok (show '\n' ∉ truncationNotice by decide)
  unfold notedMessage
  split
  · rw [made]
    refine ⟨_, rfl, ?_⟩
    intro line member
    rcases List.mem_cons.mp member with rfl | old
    · exact Line.worded_withStyle notice_worded truncationStyle
    · exact worded line old
  · exact ⟨message, rfl, worded⟩

/-- Every checked label becomes a candidate. -/
theorem exists_candidate_eq_ok (config : Config) (excerpt : Excerpt)
    (checked : CheckedLabel) :
    ∃ placed, candidate config excerpt checked = .ok placed := by
  let parentColor := resolveCaretColor checked.label.caretColor
    checked.label.styles config.enableCaretColor none
  obtain ⟨wrapped, wraps, worded⟩ := exists_wrapMessage_eq_ok
    checked.label.message config.maxLabelWidth_pos checked.label.styles
  obtain ⟨noted, notes, _⟩ :=
    exists_notedMessage_eq_ok config checked.truncated worded
  obtain ⟨children, places⟩ : ∃ children,
      checked.label.children.mapM (placeChild config parentColor) =
        .ok children :=
    exists_mapM_eq_ok fun child _ =>
      (exists_placeChild_eq_ok config parentColor child).imp fun _ both => both.1
  refine ⟨_, bind_eq_ok_iff.mpr ⟨wrapped, wraps, bind_eq_ok_iff.mpr
    ⟨noted, mapError_eq_ok_iff.mpr notes, bind_eq_ok_iff.mpr
      ⟨children, places, rfl⟩⟩⟩⟩

/-- A draft is finished if its checks pass. -/
theorem exists_finish_of_check {draft : Draft} {checked : List CheckedLabel}
    (bounded : (draft.text.length : Int) + 8 ≤ maxPosition)
    (checking : draft.check = .ok checked) :
    ∃ report, draft.finish = .ok report := by
  obtain ⟨_, nonempty, _, rfl⟩ := check_eq_ok_iff.mp checking
  obtain ⟨window, holds⟩ := windows_excerpt nonempty (by omega)
  obtain ⟨candidates, placing⟩ : ∃ candidates,
      draft.records.mapM (candidate draft.config (draft.excerpt draft.records)) =
        .ok candidates :=
    exists_mapM_eq_ok fun checked _ => exists_candidate_eq_ok _ _ checked
  have inside : ∀ candidate ∈ candidates, candidate.CaretInside := by
    intro candidate member
    obtain ⟨item, found, made⟩ := exists_source_of_mapM placing member
    obtain ⟨label, label_mem, index, rfl⟩ := exists_label_of_mem_records found
    obtain ⟨after, before⟩ := holds label label_mem
    have anchored := anchored_of_places (places_of_candidate made) window bounded
      after before
    exact anchored.caret_inside
  obtain ⟨segments, merged⟩ : ∃ segments,
      mergeOverlaps draft.config.splitOnEqualStart candidates = .ok segments :=
    exists_mergeOverlaps_eq_ok inside
  exact ⟨_, finish_eq_ok_iff.mpr ⟨draft.records, checking, candidates, placing,
    segments, merged, rfl⟩⟩

/-- Finishing a draft fails only in its checks. -/
theorem finish_eq_error_iff {draft : Draft}
    (bounded : (draft.text.length : Int) + 8 ≤ maxPosition)
    {cause : FinishError} :
    draft.finish = .error cause ↔
      ∃ fault, draft.check = .error fault ∧ cause = .ofFault fault := by
  cases checking : draft.check with
  | error fault =>
      have fails : draft.finish = .error (.ofFault fault) := by
        rw [finish, checking]
        rfl
      simp [fails, eq_comm]
  | ok checked =>
      obtain ⟨report, finished⟩ := exists_finish_of_check bounded checking
      simp [finished]

/-- A draft without faults is finished. -/
theorem exists_finish_eq_ok {draft : Draft}
    (bounded : (draft.text.length : Int) + 8 ≤ maxPosition)
    (sound : draft.faults = []) : ∃ report, draft.finish = .ok report := by
  have checking : draft.check = .ok draft.records := by
    rw [check_eq_rejectFirst, sound]
    rfl
  exact exists_finish_of_check bounded checking

/-- What a draft wraps holds nothing but text. -/
theorem Wraps.worded {config : Config} {label : Label} {truncated : Bool}
    {placed : PlacedLabel} (wraps : Wraps config label truncated placed) :
    ∀ text ∈ placed.texts, text.Worded := by
  obtain ⟨wrapped, wrapping, noting⟩ := wraps.message
  obtain ⟨message, wrapped_eq, wrapped_worded⟩ := exists_wrapMessage_eq_ok
    label.message config.maxLabelWidth_pos label.styles
  obtain rfl : message = wrapped :=
    Except.ok.inj (wrapped_eq.symm.trans wrapping)
  obtain ⟨noted, noted_eq, noted_worded⟩ :=
    exists_notedMessage_eq_ok config truncated wrapped_worded
  obtain rfl : noted = placed.message :=
    Except.ok.inj (noted_eq.symm.trans noting)
  intro text member
  rcases List.mem_append.mp member with own | below
  · exact noted_worded text own
  · obtain ⟨child, child_mem, inside⟩ := List.mem_flatMap.mp below
    obtain ⟨source, _, made⟩ := exists_source_of_mapM wraps.children child_mem
    obtain ⟨other, other_eq, other_worded⟩ :=
      exists_placeChild_eq_ok config placed.caretColor source
    obtain rfl : other = child := Except.ok.inj (other_eq.symm.trans made)
    exact other_worded text inside

/-- The segments of a finished report lie in its text. -/
theorem liesIn_of_finish {draft : Draft} {report : Report}
    (bounded : (draft.text.length : Int) + 8 ≤ maxPosition)
    (finished : draft.finish = .ok report) :
    ∀ segment ∈ report.segments, segment.LiesIn report.text := by
  intro segment member
  obtain ⟨candidates, merged, anchored, _, echoing⟩ :=
    exists_candidates_of_finish bounded finished
  obtain ⟨members, gathers, among, anchors⟩ :=
    exists_anchored_of_mem_segments merged anchored member
  obtain ⟨candidate, candidate_mem, contains⟩ :=
    (gathers.covered segment.last).mp
      ((Span.contains_iff _ _).mpr ⟨segment.ordered, Int.le_refl _⟩)
  obtain ⟨label, _, echoes⟩ := echoing candidate (among _ candidate_mem)
  rw [Span.contains_iff] at contains
  refine ⟨gathers.first_nonneg anchors,
    Int.lt_of_le_of_lt contains.2 echoes.inside,
    Int.lt_of_le_of_lt contains.2 (anchors _ candidate_mem).last_lt, ?_⟩
  intro placed placed_mem
  obtain ⟨candidate, candidate_mem, shows⟩ :=
    exists_candidate_shown merged anchored member placed_mem
  obtain ⟨label, _, echoes⟩ := echoing candidate candidate_mem
  have located :=
    locates_of_shows (anchored candidate candidate_mem) echoes shows
  exact located.wraps.worded

/-- A draft with faults fails for the first of them: it is rejected, unless the
message of the fault cannot be written.  Any other draft is finished, and its
report renders unless its reach is too wide for a run of columns. -/
theorem finish_rejects_or_renders (draft : Draft)
    (bounded : (draft.text.length : Int) + 8 ≤ maxPosition) :
    (∀ fault others, draft.faults = fault :: others →
      draft.finish = .error
        (if fault.isWritable then .rejected fault
          else .wording .tooLongToWrite)) ∧
    (draft.faults = [] → ∃ report, draft.finish = .ok report ∧
      (report.render? = .ok report.render ∨
        report.render? = .error .uncountable ∧
          maxPosition < report.reach)) := by
  constructor
  · intro fault others faults
    exact finish_of_faults_cons faults
  · intro sound
    obtain ⟨report, finished⟩ := exists_finish_eq_ok bounded sound
    exact ⟨report, finished,
      Report.render?_cases (liesIn_of_finish bounded finished)⟩

/-- A label that leaves the text on both sides, clamped and rejected. -/
theorem finish_rejects_or_renders_leaving :
    let draft : Draft := {
      text := ['a', ' ', 'b']
      config := { boundsPolicy := .truncateIndicate }
      labels := [{
        span := ⟨-3, 99, by decide⟩
        message := ['m']
        children := [{ message := ['c'] }, { message := [] }] }] }
    let mended : Draft := { draft with
      labels := draft.labels.map fun label =>
        { label with children := [{ message := ['c'] }] } }
    let strict : Draft := { draft with config := {} }
    (draft.text.length : Int) + 8 ≤ maxPosition ∧
      strict.finish =
        .error (.rejected (.outOfBounds ⟨-3, 99, by decide⟩ ⟨0, 2, by decide⟩)) ∧
      draft.finish =
        .error (.rejected (.emptyChildMessage 0 1 ⟨-3, 99, by decide⟩)) ∧
      ∃ report, mended.finish = .ok report ∧
        (report.render? = .ok report.render ∨
          report.render? = .error .uncountable ∧
            maxPosition < report.reach) := by
  intro draft mended strict
  have bounded : (draft.text.length : Int) + 8 ≤ maxPosition := by decide
  have strict_faults : strict.faults =
      [.outOfBounds ⟨-3, 99, by decide⟩ ⟨0, 2, by decide⟩,
        .emptyChildMessage 0 1 ⟨-3, 99, by decide⟩] := by decide
  have faults : draft.faults =
      [.emptyChildMessage 0 1 ⟨-3, 99, by decide⟩] := by decide
  have sound : mended.faults = [] := by decide
  have strict_fails :=
    (finish_rejects_or_renders strict bounded).1 _ _ strict_faults
  have fails := (finish_rejects_or_renders draft bounded).1 _ _ faults
  rw [if_pos (by decide)] at strict_fails fails
  exact ⟨bounded, strict_fails, fails,
    (finish_rejects_or_renders mended bounded).2 sound⟩

/-- Two drafts that miss.  The label of the first ends so far behind the text that
its range cannot be written: the draft has the documented fault, but is not
rejected for it.  The second has no faults, but its arrow stands further from
its message than a machine word can count: its report does not render. -/
theorem finish_unworded_unrendered_far :
    let far : Span := ⟨0, 10 ^ integerDigitLimit, by positivity⟩
    let beyond : Draft := {
      text := ['a', 'b', 'c']
      labels := [{ span := far, message := ['m'] }] }
    let wide : Draft := {
      text := ['a', 'b']
      config := {
        trimInput := false
        layout := { arrowPadding := 9223372036854775808 } }
      labels := [{ span := .single 0, message := ['m'] }] }
    ((beyond.text.length : Int) + 8 ≤ maxPosition ∧
        beyond.faults = [.outOfBounds far ⟨0, 2, by decide⟩] ∧
        beyond.finish = .error (.wording .tooLongToWrite)) ∧
      (wide.text.length : Int) + 8 ≤ maxPosition ∧ wide.faults = [] ∧
        ∃ report, wide.finish = .ok report ∧
          report.render? = .error .uncountable := by
  intro far beyond wide
  have unwritable : far.isWritable = false := by
    have base : Int.natAbs 10 = 10 := rfl
    rw [← Bool.not_eq_true, Span.isWritable_iff, Int.natAbs_pow, base]
    exact fun short => Nat.lt_irrefl _ short.2
  have outside : (⟨0, 2, by decide⟩ : Span).covers far = false := by
    have many : (integerDigitLimit : Int) < 10 ^ integerDigitLimit :=
      mod_cast Nat.lt_pow_self (by decide)
    rw [← Bool.not_eq_true, Span.covers_iff]
    simp only [far, integerDigitLimit] at many ⊢
    omega
  have faults : beyond.faults = [.outOfBounds far ⟨0, 2, by decide⟩] := by
    simp [beyond, Draft.faults, Label.faults, outside, emptyChildFaults,
      wholeSpan]
  have unworded : beyond.finish = .error (.wording .tooLongToWrite) := by
    rw [finish_of_faults_cons faults, FinishError.ofFault, DraftError.isWritable,
      DraftError.spans, List.all_cons, unwritable]
    rfl
  have failing : wide.finish.toOption.map Report.render? =
      some (.error .uncountable) := by
    unfold wide
    cbv
  obtain ⟨report, finished, rendered⟩ := exists_eq_ok_of_map failing
  exact ⟨⟨by decide, faults, unworded⟩, by decide, by decide, report, finished,
    rendered⟩

end Draft

end CaretReport
