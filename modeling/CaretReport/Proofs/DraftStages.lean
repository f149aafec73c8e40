import CaretReport.Draft
import CaretReport.Proofs.SpansInBounds
import CaretReport.Proofs.Traversal

/-!
# The stages of a draft

Finishing a draft checks its labels, turns every label into a candidate over
the excerpt, and merges the candidates.  This file proves that a draft is
finished exactly when every stage succeeds, and describes what the first two
stages make of a label.
-/

namespace CaretReport

/-- A span that is clamped to a text lies inside it. -/
theorem Span.clamp_inside_text (span : Span) {text : List Char}
    (nonempty : text ≠ []) :
    0 ≤ (span.clamp ((text.length : Int) - 1)).first ∧
      (span.clamp ((text.length : Int) - 1)).last < text.length := by
  have positive := List.length_pos_iff.mpr nonempty
  have nonneg : 0 ≤ (text.length : Int) - 1 := by omega
  have held := (covers_upTo_iff nonneg _).mp (covers_clamp nonneg span)
  omega

namespace Label

/-- Whether the label points outside a text. -/
def leaves (label : Label) (text : List Char) : Bool :=
  decide (label.span.first < 0 ∨ (text.length : Int) ≤ label.span.last)

/-- The span that is shown for the label: its own, or what clamping makes of it
when it points outside the text. -/
def finalSpan (label : Label) (text : List Char) : Span :=
  if label.leaves text then
    label.span.clamp ((text.length : Int) - 1)
  else
    label.span

/-- The final span of a label lies inside the text. -/
theorem finalSpan_bounds (label : Label) {text : List Char}
    (nonempty : text ≠ []) :
    0 ≤ (label.finalSpan text).first ∧
      (label.finalSpan text).last < text.length := by
  unfold finalSpan
  split
  · exact label.span.clamp_inside_text nonempty
  · rename_i inside
    simp only [leaves, decide_eq_true_eq] at inside
    omega

/-- What the checks of a draft ask of a label. -/
structure Accepted (policy : BoundsPolicy) (text : List Char)
    (label : Label) : Prop where
  bounds : label.leaves text = true → policy.truncates = true
  message : label.message ≠ []
  children : ∀ child ∈ label.children, child.message ≠ []

/-- What the checks of a draft record about a label. -/
def record (text : List Char) (label : Label) (index : Nat) : CheckedLabel :=
  ⟨label, label.finalSpan text, label.leaves text, index⟩

end Label

theorem emptyChild?_eq_none_iff {children : List ChildLabel} :
    emptyChild? children = none ↔ ∀ child ∈ children, child.message ≠ [] := by
  simp [emptyChild?, List.findIdx?_eq_none_iff]

namespace Draft

theorem covers_wholeSpan (character : Char) (rest : List Char) (label : Label) :
    (wholeSpan character rest).covers label.span =
      !label.leaves (character :: rest) := by
  rw [Bool.eq_iff_iff, Span.covers_iff]
  simp only [wholeSpan, Label.leaves, Bool.not_eq_true', decide_eq_false_iff_not]
  omega

section Check

variable {policy : BoundsPolicy} {character : Char} {rest : List Char}
variable {index : Nat} {label : Label} {checked : CheckedLabel}

theorem checkLabel_of_accepted
    (accepted : label.Accepted policy (character :: rest)) :
    checkLabel policy (wholeSpan character rest) index label =
      .ok (label.record (character :: rest) index) := by
  have passes : ¬ (!(wholeSpan character rest).covers label.span &&
      !policy.truncates) = true := by
    rw [covers_wholeSpan, Bool.not_not, Bool.and_eq_true, Bool.not_eq_true']
    rintro ⟨leaves, rejects⟩
    rw [accepted.bounds leaves] at rejects
    cases rejects
  have span_eq : (if (!label.leaves (character :: rest)) = true then
      label.span
    else
      label.span.clamp (wholeSpan character rest).last) =
      label.finalSpan (character :: rest) := by
    unfold Label.finalSpan
    cases label.leaves (character :: rest) <;> rfl
  simp only [checkLabel]
  rw [if_neg passes, if_neg accepted.message,
    emptyChild?_eq_none_iff.mpr accepted.children]
  simp only [covers_wholeSpan, Bool.not_not, span_eq]
  rfl

theorem accepted_of_checkLabel
    (passed : checkLabel policy (wholeSpan character rest) index label =
      .ok checked) : label.Accepted policy (character :: rest) := by
  simp only [checkLabel, covers_wholeSpan, Bool.not_not] at passed
  split at passed
  · cases passed
  · rename_i bounds
    split at passed
    · cases passed
    · rename_i message
      split at passed
      · cases passed
      · rename_i children
        refine ⟨?_, message, emptyChild?_eq_none_iff.mp children⟩
        simpa using bounds

/-- A label passes its check exactly when it is acceptable. -/
theorem checkLabel_eq_ok_iff :
    checkLabel policy (wholeSpan character rest) index label = .ok checked ↔
      label.Accepted policy (character :: rest) ∧
        checked = label.record (character :: rest) index := by
  constructor
  · intro passed
    have accepted := accepted_of_checkLabel passed
    rw [checkLabel_of_accepted accepted] at passed
    exact ⟨accepted, (Except.ok.inj passed).symm⟩
  · rintro ⟨accepted, rfl⟩
    exact checkLabel_of_accepted accepted

end Check

theorem checkLabels_eq_ok_iff {policy : BoundsPolicy} {character : Char}
    {rest : List Char} {index : Nat} {labels : List Label}
    {checked : List CheckedLabel} :
    checkLabels policy (wholeSpan character rest) index labels = .ok checked ↔
      (∀ label ∈ labels, label.Accepted policy (character :: rest)) ∧
        checked = (labels.zipIdx index).map fun (label, index) =>
          label.record (character :: rest) index := by
  induction labels generalizing index checked with
  | nil => simp [checkLabels, eq_comm]
  | cons label labels ih =>
      simp only [checkLabels, bind_eq_ok_iff, checkLabel_eq_ok_iff, ih,
        List.forall_mem_cons, List.zipIdx_cons, List.map_cons]
      constructor
      · rintro ⟨_, ⟨head, rfl⟩, _, ⟨tail, rfl⟩, same⟩
        exact ⟨⟨head, tail⟩, (Except.ok.inj same).symm⟩
      · rintro ⟨⟨head, tail⟩, rfl⟩
        exact ⟨_, ⟨head, rfl⟩, _, ⟨tail, rfl⟩, rfl⟩

/-- What the checks record when they all pass. -/
def records (draft : Draft) : List CheckedLabel :=
  draft.labels.zipIdx.map fun (label, index) => label.record draft.text index

theorem spans_records (draft : Draft) :
    draft.records.map CheckedLabel.span =
      draft.labels.map fun label => label.finalSpan draft.text := by
  rw [records, List.map_map]
  conv =>
    rhs
    rw [← List.zipIdx_map_fst 0 draft.labels, List.map_map]
  rfl

theorem exists_mem_records {draft : Draft} {label : Label}
    (member : label ∈ draft.labels) :
    ∃ index, label.record draft.text index ∈ draft.records := by
  obtain ⟨index, found⟩ := List.mem_iff_getElem?.mp member
  exact ⟨index, List.mem_map.mpr
    ⟨(label, index), List.mem_zipIdx_iff_getElem?.mpr found, rfl⟩⟩

theorem exists_label_of_mem_records {draft : Draft} {item : CheckedLabel}
    (member : item ∈ draft.records) :
    ∃ label ∈ draft.labels, ∃ index, item = label.record draft.text index := by
  obtain ⟨⟨label, index⟩, found, rfl⟩ := List.mem_map.mp member
  exact ⟨label, List.fst_mem_of_mem_zipIdx found, index, rfl⟩

/-- The checks of a draft pass exactly when it has a text and labels, and every
label is acceptable. -/
theorem check_eq_ok_iff {draft : Draft} {checked : List CheckedLabel} :
    draft.check = .ok checked ↔
      draft.labels ≠ [] ∧ draft.text ≠ [] ∧
        (∀ label ∈ draft.labels,
          label.Accepted draft.config.boundsPolicy draft.text) ∧
        checked = draft.records := by
  obtain ⟨text, config, labels⟩ := draft
  unfold check
  split
  · rename_i unlabelled
    constructor
    · intro impossible
      cases impossible
    · rintro ⟨labelled, _⟩
      exact absurd unlabelled labelled
  · rename_i labelled
    cases text with
    | nil => simp
    | cons character rest =>
        simp only [checkLabels_eq_ok_iff, records]
        constructor
        · rintro ⟨accepted, same⟩
          exact ⟨labelled, List.cons_ne_nil _ _, accepted, same⟩
        · rintro ⟨_, _, accepted, same⟩
          exact ⟨accepted, same⟩

/-- A draft is finished exactly when its checks pass, every label becomes a
candidate, and the candidates can be merged. -/
theorem finish_eq_ok_iff {draft : Draft} {report : Report} :
    draft.finish = .ok report ↔
      ∃ checked, draft.check = .ok checked ∧
        ∃ candidates,
          checked.mapM (candidate draft.config (draft.excerpt checked)) =
            .ok candidates ∧
          ∃ segments,
            mergeOverlaps draft.config.splitOnEqualStart candidates =
              .ok segments ∧
            report = {
              text := (draft.excerpt checked).text
              segments := segments
              showRangeSuffix := draft.config.showRangeSuffix
              colorizeEchoedInput := draft.config.colorizeEchoedInput
              layout := draft.config.layout } := by
  simp only [finish, assemble, bind_eq_ok_iff, mapError_eq_ok_iff, pure,
    Except.pure, Except.ok.injEq, eq_comm (a := report)]

/-- A label carries the message, the children and the colours of a pushed
label, wrapped as the options say. -/
structure Wraps (config : Config) (label : Label) (truncated : Bool)
    (placed : PlacedLabel) : Prop where
  message : ∃ wrapped,
    wrapMessage label.message config.maxLabelWidth label.styles = .ok wrapped ∧
      notedMessage config truncated wrapped = .ok placed.message
  children : label.children.mapM (placeChild config placed.caretColor) =
    .ok placed.children
  caretColor : placed.caretColor =
    resolveCaretColor label.caretColor label.styles config.enableCaretColor none
  highlightColor : placed.highlightColor =
    resolveHighlight placed.caretColor label.styles

/-- What a checked label becomes: a candidate over the excerpt. -/
structure Places (config : Config) (excerpt : Excerpt) (checked : CheckedLabel)
    (placed : Candidate) : Prop where
  span : placed.span = excerpt.rebase checked.span
  index : placed.index = checked.index
  position : placed.label.position = caretOffset placed.span.length
  offset : placed.label.offset = 0
  length : placed.label.length = placed.span.length
  wraps : Wraps config checked.label checked.truncated placed.label

theorem places_of_candidate {config : Config} {excerpt : Excerpt}
    {checked : CheckedLabel} {placed : Candidate}
    (made : candidate config excerpt checked = .ok placed) :
    Places config excerpt checked placed := by
  simp only [candidate, bind_eq_ok_iff, mapError_eq_ok_iff] at made
  obtain ⟨wrapped, wrapping, message, noting, children, placing, same⟩ := made
  cases same
  exact ⟨rfl, rfl, rfl, rfl, rfl, ⟨wrapped, wrapping, noting⟩, placing, rfl, rfl⟩

/-- The lines of a message are decided by its text, its width, and the policy for
labels that leave the text. -/
theorem Wraps.same_message {config other_config : Config} {label : Label}
    {truncated : Bool} {placed other : PlacedLabel}
    (wraps : Wraps config label truncated placed)
    (rewraps : Wraps other_config label truncated other)
    (width : other_config.maxLabelWidth = config.maxLabelWidth)
    (policy : other_config.boundsPolicy = config.boundsPolicy) :
    other.message = placed.message := by
  obtain ⟨wrapped, wrapping, noting⟩ := wraps.message
  obtain ⟨rewrapped, rewrapping, renoting⟩ := rewraps.message
  rw [width] at rewrapping
  rw [notedMessage, policy] at renoting
  obtain rfl : rewrapped = wrapped :=
    Except.ok.inj (rewrapping.symm.trans wrapping)
  exact Except.ok.inj (renoting.symm.trans noting)

/-- What a label carries is decided by what it was wrapped from. -/
theorem Wraps.same_content {config : Config} {label : Label} {truncated : Bool}
    {placed other : PlacedLabel} (wraps : Wraps config label truncated placed)
    (rewraps : Wraps config label truncated other) :
    other.message = placed.message ∧ other.children = placed.children ∧
      other.caretColor = placed.caretColor ∧
      other.highlightColor = placed.highlightColor := by
  have caret := rewraps.caretColor.trans wraps.caretColor.symm
  have children := rewraps.children
  have highlight := rewraps.highlightColor
  rw [caret] at children highlight
  exact ⟨wraps.same_message rewraps rfl rfl,
    Except.ok.inj (children.symm.trans wraps.children), caret,
    highlight.trans wraps.highlightColor.symm⟩

/-- The columns of a placed label are decided by its length. -/
theorem Places.same_columns {config other_config : Config}
    {excerpt further : Excerpt} {checked rechecked : CheckedLabel}
    {candidate other : Candidate}
    (placed : Places config excerpt checked candidate)
    (replaced : Places other_config further rechecked other)
    (length : other.span.length = candidate.span.length) :
    other.label.position = candidate.label.position ∧
      other.label.offset = candidate.label.offset ∧
      other.label.length = candidate.label.length := by
  refine ⟨?_, replaced.offset.trans placed.offset.symm, ?_⟩
  · rw [replaced.position, placed.position, length]
  · rw [replaced.length, placed.length, length]

/-- One label, placed twice at the same length, is the same. -/
theorem Places.same_label {config : Config} {excerpt further : Excerpt}
    {checked rechecked : CheckedLabel} {candidate other : Candidate}
    (placed : Places config excerpt checked candidate)
    (replaced : Places config further rechecked other)
    (label : rechecked.label = checked.label)
    (truncated : rechecked.truncated = checked.truncated)
    (length : other.span.length = candidate.span.length) :
    other.label = candidate.label := by
  obtain ⟨position, offset, width⟩ := placed.same_columns replaced length
  have rewraps := replaced.wraps
  rw [label, truncated] at rewraps
  obtain ⟨message, children, caret, highlight⟩ :=
    placed.wraps.same_content rewraps
  obtain ⟨_, ⟨_, _, _, _, _, _, _⟩, _⟩ := candidate
  obtain ⟨_, ⟨_, _, _, _, _, _, _⟩, _⟩ := other
  simp_all

/-- A finished draft places all of its labels and merges what comes of them. -/
theorem exists_places_of_finish {draft : Draft} {report : Report}
    (finished : draft.finish = .ok report) :
    ∃ candidates,
      List.Forall₂ (Places draft.config (draft.excerpt draft.records))
        draft.records candidates ∧
      mergeOverlaps draft.config.splitOnEqualStart candidates =
        .ok report.segments ∧
      report = {
        text := (draft.excerpt draft.records).text
        segments := report.segments
        showRangeSuffix := draft.config.showRangeSuffix
        colorizeEchoedInput := draft.config.colorizeEchoedInput
        layout := draft.config.layout } := by
  obtain ⟨_, checking, candidates, placing, segments, merged, rfl⟩ :=
    finish_eq_ok_iff.mp finished
  obtain ⟨_, _, _, rfl⟩ := check_eq_ok_iff.mp checking
  refine ⟨candidates, ?_, merged, rfl⟩
  exact ((mapM_eq_ok_iff _ _ _).mp placing).imp fun _ _ => places_of_candidate

end Draft

end CaretReport
