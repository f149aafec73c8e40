import CaretReport.Proofs.CalloutRows

/-!
# Connectors from the underbar to the messages

The connector of a label starts as a `┬` on the underbar, runs down its column
past the callouts of all labels before it, and bends on its own turn row.  The
callouts are stacked, so the turn row of a label is found by adding up the
heights of the callouts above it.  This file proves what every connector column
holds on every line of a segment, and that text only ever stands to the right
of all connectors.
-/

namespace CaretReport

/-- The row on which a label turns, counted from the first callout: one row
separates each callout from the next. -/
def turnRow : List PlacedLabel → Nat → Nat
  | label :: rest, index + 1 => label.height + 1 + turnRow rest index
  | _, _ => 0

/-- Later labels turn on later rows. -/
theorem turnRow_lt {labels : List PlacedLabel} {earlier later : Nat}
    (before : earlier < later) (inside : later < labels.length) :
    turnRow labels earlier < turnRow labels later := by
  induction labels generalizing earlier later with
  | nil => cases inside
  | cons label rest ih =>
      obtain ⟨later, rfl⟩ : ∃ next, later = next + 1 := ⟨later - 1, by omega⟩
      rw [List.length_cons] at inside
      cases earlier with
      | zero =>
          simp only [turnRow]
          omega
      | succ earlier =>
          have rest_before := ih (show earlier < later by omega) (by omega)
          simp only [turnRow]
          omega

/-- The label turns on a row after the given one. -/
def PendingAt (labels : List PlacedLabel) (row : Nat) (label : PlacedLabel) :
    Prop :=
  ∃ index, labels[index]? = some label ∧ row < turnRow labels index

/-- The labels stand in the order of their carets, right of the margin, and the
limit is the column of the rightmost caret. -/
structure Stacked (first limit : Int) (labels : List PlacedLabel) : Prop where
  sorted : labels.Pairwise fun label other => label.position ≤ other.position
  nonneg : ∀ label ∈ labels, 0 ≤ first + label.position
  bounds : ∀ label ∈ labels, first + label.position ≤ limit
  attained : labels ≠ [] → ∃ label ∈ labels, first + label.position = limit

section Callouts

variable {first limit : Int} {label : PlacedLabel} {labels : List PlacedLabel}

theorem Stacked.tail (stacked : Stacked first limit (label :: labels)) :
    Stacked first limit labels := by
  obtain ⟨before, sorted⟩ := List.pairwise_cons.mp stacked.sorted
  have bounds := (List.forall_mem_cons.mp stacked.bounds).2
  refine ⟨sorted, (List.forall_mem_cons.mp stacked.nonneg).2, bounds, ?_⟩
  intro nonempty
  rcases (List.exists_mem_cons_iff _ _ _).mp
    (stacked.attained (List.cons_ne_nil label labels)) with here | later
  · -- The caret of the head is rightmost, so all carets share its column.
    obtain ⟨next, member⟩ := List.exists_mem_of_ne_nil labels nonempty
    have after := before next member
    have inside := bounds next member
    exact ⟨next, member, by omega⟩
  · exact later

theorem Stacked.ordered (stacked : Stacked first limit (label :: labels)) :
    (Turn.mk first label labels).Ordered :=
  ⟨stacked.nonneg label List.mem_cons_self, stacked.sorted⟩

theorem Stacked.add_hub_eq (stacked : Stacked first limit (label :: labels)) :
    first + (Turn.mk first label labels).hub = limit := by
  obtain ⟨other, other_mem, hub_eq⟩ :=
    (Turn.mk first label labels).exists_position_eq_hub
  obtain ⟨last, last_mem, limit_eq⟩ :=
    stacked.attained (List.cons_ne_nil label labels)
  have inside := stacked.bounds other other_mem
  have below := (Turn.mk first label labels).le_hub last_mem
  omega

theorem Stacked.separator_waits (stacked : Stacked first limit labels)
    (nonempty : labels ≠ []) :
    (separator first labels).Waits (caretColumns first labels) limit :=
  Line.waits_of_connects (wordless_separator first labels)
    (connects_separator stacked.sorted stacked.nonneg)
    (mem_caretColumns.mpr (stacked.attained nonempty))

theorem callouts_cons (layout : Layout) :
    callouts layout first (label :: labels) =
      Turn.rows layout ⟨first, label, labels⟩ ++
        (if labels = [] then [] else [⟨separator first labels, none⟩]) ++
          callouts layout first labels := by
  cases labels with
  | nil => simp [callouts]
  | cons next rest => simp [callouts]

/-- The callouts of several labels open with the turn row of the first, and the
connectors of the others wait until the next turn row. -/
theorem exists_callouts_eq (layout : Layout)
    (stacked : Stacked first limit (label :: labels)) :
    ∃ opening waiting,
      callouts layout first (label :: labels) =
        opening :: (waiting ++ callouts layout first labels) ∧
      opening.text = some label.message.first ∧
      opening.art.Turns (first + label.position) limit
        (Turn.mk first label labels).corner ∧
      (∀ row ∈ waiting,
        row.art.Waits (caretColumns first labels) limit) ∧
      (labels ≠ [] → waiting.length = label.height) := by
  obtain ⟨opening, waiting, rows_eq, text, turns, waits⟩ :=
    Turn.exists_rows_eq stacked.ordered layout
  have length := Turn.length_rows layout ⟨first, label, labels⟩
  rw [rows_eq, List.length_cons] at length
  rw [stacked.add_hub_eq] at turns waits
  rw [callouts_cons, rows_eq]
  by_cases last : labels = []
  · exact ⟨opening, waiting, by simp [last], text, turns, waits,
      fun nonempty => absurd last nonempty⟩
  · refine ⟨opening, waiting ++ [⟨separator first labels, none⟩],
      by simp [last], text, turns, ?_, ?_⟩
    · intro row member
      rcases List.mem_append.mp member with old | new
      · exact waits row old
      · rw [List.mem_singleton.mp new]
        exact stacked.tail.separator_waits last
    · intro _
      rw [List.length_append, List.length_singleton]
      exact length

/-- Every label turns on its turn row, beside the first line of its message. -/
theorem exists_turnRow (layout : Layout)
    (stacked : Stacked first limit labels) {index : Nat}
    (found : labels[index]? = some label) :
    ∃ row, (callouts layout first labels)[turnRow labels index]? = some row ∧
      row.text = some label.message.first ∧
      row.art.Turns (first + label.position) limit
        (Turn.mk first label (labels.drop (index + 1))).corner := by
  induction labels generalizing index with
  | nil => cases found
  | cons head rest ih =>
      obtain ⟨opening, waiting, rows_eq, text, turns, _, length⟩ :=
        exists_callouts_eq layout stacked
      cases index with
      | zero =>
          rw [List.getElem?_cons_zero, Option.some.injEq] at found
          rw [← found, rows_eq]
          exact ⟨opening, rfl, text, turns⟩
      | succ index =>
          rw [List.getElem?_cons_succ] at found
          have nonempty : rest ≠ [] :=
            List.ne_nil_of_mem (List.mem_of_getElem? found)
          obtain ⟨row, row_eq, rest_text, rest_turns⟩ :=
            ih stacked.tail found
          refine ⟨row, ?_, rest_text, rest_turns⟩
          have place : turnRow (head :: rest) (index + 1) =
              waiting.length + turnRow rest index + 1 := by
            rw [length nonempty]
            simp only [turnRow]
            omega
          rw [rows_eq, place, List.getElem?_cons_succ,
            List.getElem?_append_right (Nat.le_add_right _ _),
            Nat.add_sub_cancel_left]
          exact row_eq

theorem pendingAt_cons_iff {row : Nat} {other : PlacedLabel} :
    PendingAt (label :: labels) row other ↔
      ∃ index, labels[index]? = some other ∧
        row < label.height + 1 + turnRow labels index := by
  constructor
  · rintro ⟨index, found, below⟩
    cases index with
    | zero => cases below
    | succ index => exact ⟨index, found, below⟩
  · rintro ⟨index, found, below⟩
    exact ⟨index + 1, found, below⟩

/-- On a row on which no label turns, the connectors of the labels that turn
later wait. -/
theorem exists_waits (layout : Layout)
    (stacked : Stacked first limit labels) {number : Nat}
    {row : Row} (drawn : (callouts layout first labels)[number]? = some row)
    (straight : ∀ index < labels.length, number ≠ turnRow labels index) :
    ∃ columns, row.art.Waits columns limit ∧
      ∀ column, column ∈ columns ↔
        ∃ label, PendingAt labels number label ∧
          first + label.position = column := by
  induction labels generalizing number with
  | nil => cases drawn
  | cons head rest ih =>
      obtain ⟨opening, waiting, rows_eq, _, _, waits, length⟩ :=
        exists_callouts_eq layout stacked
      have positive : number ≠ 0 := straight 0 (Nat.zero_lt_succ rest.length)
      obtain ⟨before, rfl⟩ : ∃ before, number = before + 1 :=
        ⟨number - 1, by omega⟩
      rw [rows_eq, List.getElem?_cons_succ] at drawn
      by_cases early : before < waiting.length
      · -- The rows of the callout, and the separator below them.
        rw [List.getElem?_append_left early] at drawn
        refine ⟨_, waits row (List.mem_of_getElem? drawn), ?_⟩
        intro column
        rw [mem_caretColumns]
        simp only [pendingAt_cons_iff]
        constructor
        · rintro ⟨label, member, same⟩
          obtain ⟨index, found⟩ := List.mem_iff_getElem?.mp member
          have height := length (List.ne_nil_of_mem member)
          exact ⟨label, ⟨index, found, by omega⟩, same⟩
        · rintro ⟨label, ⟨index, found, _⟩, same⟩
          exact ⟨label, List.mem_of_getElem? found, same⟩
      · -- The callouts of the other labels.
        rw [List.getElem?_append_right (by omega)] at drawn
        have nonempty : rest ≠ [] := by
          rintro rfl
          cases drawn
        have height := length nonempty
        have rest_straight : ∀ index < rest.length,
            before - waiting.length ≠ turnRow rest index := by
          intro index inside same
          apply straight (index + 1) (Nat.succ_lt_succ inside)
          simp only [turnRow]
          omega
        obtain ⟨columns, rest_waits, same_columns⟩ :=
          ih stacked.tail drawn rest_straight
        refine ⟨columns, rest_waits, ?_⟩
        intro column
        have same_row (index : Nat) :
            before - waiting.length < turnRow rest index ↔
              before + 1 < head.height + 1 + turnRow rest index := by omega
        rw [same_columns]
        simp only [pendingAt_cons_iff]
        simp only [PendingAt, same_row]

/-- A row of the callouts is a row of one of them, or a separator between
two. -/
theorem cases_of_mem_callouts {layout : Layout} {row : Row}
    (member : row ∈ callouts layout first labels) :
    (∃ label pending, label :: pending <:+ labels ∧
      (Turn.mk first label pending).IsRow layout row) ∨
    ∃ pending, pending <:+ labels ∧ row = ⟨separator first pending, none⟩ := by
  induction labels with
  | nil => cases member
  | cons label rest ih =>
      rw [callouts_cons, List.append_assoc, List.mem_append,
        List.mem_append] at member
      rcases member with here | between | later
      · exact Or.inl ⟨label, rest, List.suffix_refl _,
          Turn.isRow_of_mem_rows here⟩
      · split at between
        · cases between
        · exact Or.inr ⟨rest, List.suffix_cons label rest,
            List.mem_singleton.mp between⟩
      · rcases ih later with ⟨other, pending, suffix, isRow⟩ |
          ⟨pending, suffix, same⟩
        · exact Or.inl ⟨other, pending,
            suffix.trans (List.suffix_cons label rest), isRow⟩
        · exact Or.inr ⟨pending,
            suffix.trans (List.suffix_cons label rest), same⟩

theorem wordless_of_mem_callouts {layout : Layout} {row : Row}
    (member : row ∈ callouts layout first labels) : row.art.Wordless := by
  rcases cases_of_mem_callouts member with ⟨_, _, _, isRow⟩ | ⟨pending, _, rfl⟩
  · exact isRow.wordless
  · exact wordless_separator first pending

/-- The glyphs of every row of the callouts reach past the rightmost caret. -/
theorem reaches_of_mem_callouts (layout : Layout)
    (stacked : Stacked first limit labels) {row : Row}
    (member : row ∈ callouts layout first labels) :
    limit < row.art.plain.length := by
  obtain ⟨number, drawn⟩ := List.mem_iff_getElem?.mp member
  by_cases turning : ∃ index < labels.length, number = turnRow labels index
  · obtain ⟨index, inside, rfl⟩ := turning
    obtain ⟨other, same, _, turns⟩ := exists_turnRow layout stacked
      (List.getElem?_eq_getElem inside)
    obtain rfl : other = row := Option.some.inj (same.symm.trans drawn)
    exact turns.reaches
  · obtain ⟨columns, waits, _⟩ := exists_waits layout stacked drawn
      fun index inside same => turning ⟨index, inside, same⟩
    exact waits.reaches

theorem filterMap_text_callouts (layout : Layout) (first : Int)
    (labels : List PlacedLabel) :
    (callouts layout first labels).filterMap Row.text =
      labels.flatMap PlacedLabel.texts := by
  induction labels with
  | nil => rfl
  | cons label rest ih =>
      rw [callouts_cons, List.filterMap_append, List.filterMap_append,
        Turn.filterMap_text_rows, ih]
      split
      · simp
      · simp

theorem exists_stacked
    (sorted : labels.Pairwise fun label other =>
      label.position ≤ other.position)
    (nonneg : ∀ label ∈ labels, 0 ≤ first + label.position) :
    ∃ limit, Stacked first limit labels := by
  cases labels with
  | nil => exact ⟨0, sorted, nonneg, by simp, fun nonempty =>
      absurd rfl nonempty⟩
  | cons label rest =>
      let turn : Turn := ⟨first, label, rest⟩
      obtain ⟨last, member, hub_eq⟩ := turn.exists_position_eq_hub
      refine ⟨first + turn.hub, sorted, nonneg, ?_,
        fun _ => ⟨last, member, by omega⟩⟩
      intro other other_mem
      have inside := turn.le_hub other_mem
      omega

end Callouts

end CaretReport
