import CaretReport.Proofs.DraftStages

/-!
# The faults of a draft

The checks of a draft stop at the first one that fails.  This file lists all
checks that fail, label by label in the order of declaration and child by child
within a label, and proves that the checks reject a draft for the first entry
of that list, and pass only if the list is empty.
-/

namespace CaretReport

/-- The value, unless there is a fault; then the first fault is the error. -/
def rejectFirst {Value : Type} (faults : List DraftError) (value : Value) :
    Except DraftError Value :=
  match faults.head? with
  | none => .ok value
  | some fault => .error fault

/-- Values that are checked one after the other are rejected for the first
fault of all. -/
theorem rejectFirst_append_cons {Value : Type} (faults others : List DraftError)
    (value : Value) (values : List Value) :
    rejectFirst (faults ++ others) (value :: values) = (do
      let accepted ← rejectFirst faults value
      let further ← rejectFirst others values
      return accepted :: further) := by
  cases faults with
  | nil =>
      cases others with
      | nil => rfl
      | cons fault rest => rfl
  | cons fault rest => rfl

/-- The children without a message. -/
def emptyChildFaults (index : Nat) (span : Span) (childIndex : Nat)
    (children : List ChildLabel) : List DraftError :=
  (children.zipIdx childIndex).filterMap fun (child, childIndex) =>
    if child.message = [] then
      some (.emptyChildMessage index childIndex span)
    else
      none

/-- Everything that is wrong with a label, in the order in which it is checked:
its range, its message, and the messages of its children. -/
def Label.faults (policy : BoundsPolicy) (valid : Span) (index : Nat)
    (label : Label) : List DraftError :=
  (if policy = .reject ∧ ¬ valid.covers label.span = true then
    [.outOfBounds label.span valid]
  else
    []) ++
  (if label.message = [] then [.emptyMessage index label.span] else []) ++
  emptyChildFaults index label.span 0 label.children

/-- Everything that is wrong with a draft.  Without a text, no range of a label
can be right or wrong, and the labels are not looked at. -/
def Draft.faults (draft : Draft) : List DraftError :=
  (if draft.labels = [] then [.noLabels] else []) ++
    match draft.text with
    | [] => [.emptyText]
    | character :: rest =>
        draft.labels.zipIdx.flatMap fun (label, index) =>
          label.faults draft.config.boundsPolicy (Draft.wholeSpan character rest)
            index

/-- The first child without a message is the one that the check finds. -/
theorem head?_emptyChildFaults (index : Nat) (span : Span) (childIndex : Nat)
    (children : List ChildLabel) :
    (emptyChildFaults index span childIndex children).head? =
      (emptyChild? children).map fun place =>
        .emptyChildMessage index (childIndex + place) span := by
  induction children generalizing childIndex with
  | nil => rfl
  | cons child rest ih =>
      unfold emptyChildFaults emptyChild? at ih ⊢
      rw [List.zipIdx_cons, List.filterMap_cons, List.findIdx?_cons]
      by_cases empty : child.message = []
      · simp [empty]
      · simp only [empty, if_false, List.isEmpty_iff]
        rw [ih, Option.map_map]
        congr 1
        funext place
        simp only [Function.comp_apply, Nat.add_assoc, Nat.add_comm 1]

namespace Draft

section Check

variable {character : Char} {rest : List Char}

theorem checkLabel_eq_rejectFirst (policy : BoundsPolicy) (index : Nat)
    (label : Label) :
    checkLabel policy (wholeSpan character rest) index label =
      rejectFirst (label.faults policy (wholeSpan character rest) index)
        (label.record (character :: rest) index) := by
  have first_child := head?_emptyChildFaults index label.span 0 label.children
  by_cases outside : policy = .reject ∧
      ¬ (wholeSpan character rest).covers label.span = true
  · obtain ⟨rfl, uncovered⟩ := outside
    simp [checkLabel, Label.faults, rejectFirst, uncovered,
      BoundsPolicy.truncates]
  have passes : ¬ (!(wholeSpan character rest).covers label.span &&
      !policy.truncates) = true := by
    simpa [BoundsPolicy.truncates, and_comm] using outside
  simp only [Label.faults, if_neg outside, List.nil_append]
  by_cases silent : label.message = []
  · simp only [checkLabel, if_neg passes, if_pos silent]
    rfl
  · simp only [if_neg silent, List.nil_append]
    cases children : emptyChild? label.children with
    | some place =>
        simp only [checkLabel, if_neg passes, if_neg silent, children]
        rw [rejectFirst, first_child, children, Option.map_some, Nat.zero_add]
    | none =>
        have accepted : label.Accepted policy (character :: rest) := by
          refine ⟨?_, silent, emptyChild?_eq_none_iff.mp children⟩
          simpa [covers_wholeSpan] using passes
        rw [checkLabel_of_accepted accepted, rejectFirst, first_child, children]
        rfl

theorem checkLabels_eq_rejectFirst (policy : BoundsPolicy) (index : Nat)
    (labels : List Label) :
    checkLabels policy (wholeSpan character rest) index labels =
      rejectFirst
        ((labels.zipIdx index).flatMap fun (label, index) =>
          label.faults policy (wholeSpan character rest) index)
        ((labels.zipIdx index).map fun (label, index) =>
          label.record (character :: rest) index) := by
  induction labels generalizing index with
  | nil => rfl
  | cons label labels ih =>
      rw [checkLabels, checkLabel_eq_rejectFirst, ih, List.zipIdx_cons,
        List.flatMap_cons, List.map_cons]
      exact (rejectFirst_append_cons _ _ _ _).symm

end Check

/-- The checks reject a draft for its first fault, and pass if it has none. -/
theorem check_eq_rejectFirst (draft : Draft) :
    draft.check = rejectFirst draft.faults draft.records := by
  obtain ⟨text, config, labels⟩ := draft
  unfold check faults
  by_cases unlabelled : labels = []
  · simp [unlabelled, rejectFirst]
  · cases text with
    | nil => simp [unlabelled, rejectFirst]
    | cons character rest =>
        simp only [if_neg unlabelled, List.nil_append]
        exact checkLabels_eq_rejectFirst config.boundsPolicy 0 labels

/-- A draft with a fault fails for its first one. -/
theorem finish_of_faults_cons {draft : Draft} {fault : DraftError}
    {others : List DraftError} (faults : draft.faults = fault :: others) :
    draft.finish = .error (.ofFault fault) := by
  rw [finish, check_eq_rejectFirst, faults]
  rfl

end Draft

end CaretReport
