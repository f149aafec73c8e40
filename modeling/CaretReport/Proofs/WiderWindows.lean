import CaretReport.Proofs.WordWindow

/-!
# Windows inside wider windows

A window around labels grows with the labels and with its padding.  In words, a
window that falls short of another one is cut by a space that the other one
holds, so it would keep fewer spaces than the other, although it has to keep at
least as many.  In characters, sums and differences that are held in range keep
their order.  So one more label or more padding never takes away any context.
-/

namespace CaretReport

section Slices

variable {text : List Char} {start middle stop position : Int}

/-- A slice is cut in two at any position inside it. -/
theorem slice_append (text : List Char) (after : start ≤ middle)
    (before : middle ≤ stop) :
    slice text start stop =
      slice text start middle ++ slice text middle stop := by
  have lengths : stop.toNat - start.toNat =
      (middle.toNat - start.toNat) + (stop.toNat - middle.toNat) := by omega
  have reached : start.toNat + (middle.toNat - start.toNat) = middle.toNat := by
    omega
  simp only [slice, List.drop_take]
  rw [lengths, List.take_add, List.drop_drop, reached]

theorem slice_of_charAt? {character : Char}
    (found : charAt? text position = some character) :
    slice text position (position + 1) = [character] := by
  unfold charAt? at found
  split at found
  · rename_i nonneg
    obtain ⟨index, rfl⟩ := Int.eq_ofNat_of_zero_le nonneg
    have grown := slice_succ text (Nat.le_refl index)
    rw [← Int.toNat_natCast index, found] at grown
    simpa [slice] using grown
  · cases found

/-- A space inside a slice counts beside those on either side of it. -/
theorem count_slice_of_space (space : charAt? text position = some ' ')
    (after : start ≤ position) (before : position < stop) :
    (slice text start stop).count ' ' =
      (slice text start position).count ' ' + 1 +
        (slice text (position + 1) stop).count ' ' := by
  rw [slice_append text after (Int.le_of_lt before),
    slice_append text (show position ≤ position + 1 by omega)
      (show position + 1 ≤ stop by omega),
    slice_of_charAt? space, List.count_append, List.count_append]
  simp [Nat.add_assoc]

theorem count_slice_add (text : List Char) (after : start ≤ middle)
    (before : middle ≤ stop) :
    (slice text start middle).count ' ' + (slice text middle stop).count ' ' =
      (slice text start stop).count ' ' := by
  rw [slice_append text after before, List.count_append]

end Slices

section Order

variable {text : List Char} {count more : Nat}

/-- A window that keeps more spaces in front of labels that start earlier does
not start later. -/
theorem KeepsBefore.start_le_start {first start earlier wider : Int}
    (kept : KeepsBefore text count first start)
    (other : KeepsBefore text more earlier wider) (enough : count ≤ more)
    (before : earlier ≤ first) (nonneg : 0 ≤ start) : wider ≤ start := by
  by_contra short
  rcases other.cut with ⟨whole, _⟩ | ⟨space, counted⟩
  · omega
  · -- The space that cuts the other window stands inside this one.
    have inside := other.start_le
    have split := count_slice_of_space space
      (show start ≤ wider - 1 by omega) (show wider - 1 < first by omega)
    have parts := count_slice_add text inside before
    rw [Int.sub_add_cancel] at split
    have few : (slice text start first).count ' ' ≤ count := by
      rcases kept.cut with ⟨rfl, few⟩ | ⟨_, exactly⟩
      · exact few
      · exact Nat.le_of_eq exactly
    omega

/-- A window that keeps more spaces behind labels that end later does not stop
earlier. -/
theorem KeepsAfter.stop_le_stop {last stop later wider : Int}
    (kept : KeepsAfter text count last stop)
    (other : KeepsAfter text more later wider) (enough : count ≤ more)
    (after : last ≤ later) (inside : stop ≤ text.length) : stop ≤ wider := by
  by_contra short
  have reach := other.le_stop
  have many : more < (slice text last stop).count ' ' := by
    rcases other.cut with ⟨whole, _⟩ | ⟨space, counted⟩ | ⟨none, space, behind⟩
    · omega
    · have split := count_slice_of_space space
        (show last ≤ wider by omega) (show wider < stop by omega)
      have parts := count_slice_add text after
        (show later ≤ wider by omega)
      omega
    · have split := count_slice_of_space space after
        (show later < stop by omega)
      omega
  rcases kept.cut with ⟨rfl, few⟩ | ⟨_, exactly⟩ | ⟨_, _, behind⟩
  · omega
  · omega
  · omega

/-- Counted in characters, windows grow with the labels and with the padding,
also where the sums are held at the largest position. -/
theorem charWindow_widens (length : Nat) {padding wider : TrimPadding}
    {first last earlier later : Int} (before : earlier ≤ first)
    (after : last ≤ later) (more_before : padding.before ≤ wider.before)
    (more_after : padding.after ≤ wider.after) :
    (charWindow length wider earlier later).1 ≤
        (charWindow length padding first last).1 ∧
      (charWindow length padding first last).2 ≤
        (charWindow length wider earlier later).2 := by
  simp only [charWindow, satSub, satAdd]
  omega

/-- In both ways of counting, windows grow with the labels and the padding. -/
theorem trimWindow_widens (text : List Char) (mode : TrimMode)
    {padding wider : TrimPadding} {first last earlier later : Int}
    (nonneg : 0 ≤ earlier) (before : earlier ≤ first) (ordered : first ≤ last)
    (after : last ≤ later) (inside : later < text.length)
    (more_before : padding.before ≤ wider.before)
    (more_after : padding.after ≤ wider.after) :
    (trimWindow text mode wider earlier later).1 ≤
        (trimWindow text mode padding first last).1 ∧
      (trimWindow text mode padding first last).2 ≤
        (trimWindow text mode wider earlier later).2 := by
  cases mode with
  | chars =>
      exact charWindow_widens text.length before after more_before more_after
  | words =>
      constructor
      · have kept := keepsBefore_wordWindowStart text padding.before
          (show 0 ≤ first by omega) (by omega)
        have other := keepsBefore_wordWindowStart text wider.before nonneg
          (by omega)
        exact kept.start_le_start other more_before before
          (wordWindowStart_bounds text padding.before (by omega)).1
      · have kept := keepsAfter_wordWindowEnd text padding.after
          (show 0 ≤ last by omega) (by omega)
        have other := keepsAfter_wordWindowEnd text wider.after
          (show 0 ≤ later by omega) inside
        exact kept.stop_le_stop other more_after after
          (wordWindowEnd_bounds text padding.after (by omega)).2

end Order

namespace Excerpt

/-- The window around more spans inside a text, with more padding, contains the
window around fewer. -/
theorem ofSpans_widens (text : List Char) (mode : TrimMode)
    {spans others : List Span} {padding wider : TrimPadding}
    (labelled : spans ≠ []) (among : ∀ span ∈ spans, span ∈ others)
    (inside : ∀ span ∈ others, 0 ≤ span.first ∧ span.last < text.length)
    (more_before : padding.before ≤ wider.before)
    (more_after : padding.after ≤ wider.after) :
    (ofSpans text others mode wider).windowStart ≤
        (ofSpans text spans mode padding).windowStart ∧
      (ofSpans text spans mode padding).windowEnd ≤
        (ofSpans text others mode wider).windowEnd := by
  obtain ⟨span, member⟩ := List.exists_mem_of_ne_nil spans labelled
  have others_labelled : others ≠ [] := List.ne_nil_of_mem (among span member)
  have nonempty : text ≠ [] := by
    rintro rfl
    have within := inside span (among span member)
    have ordered := span.ordered
    rw [List.length_nil] at within
    omega
  obtain ⟨leftmost, leftmost_mem, rightmost, rightmost_mem, span_bounds, window⟩ :=
    exists_ofSpans_eq nonempty labelled
  obtain ⟨first, first_mem, last, last_mem, bounds, other_window⟩ :=
    exists_ofSpans_eq nonempty others_labelled
  rw [window, other_window]
  have ordered : leftmost.first ≤ rightmost.last :=
    Int.le_trans leftmost.ordered (span_bounds leftmost leftmost_mem).2
  exact trimWindow_widens text mode (inside first first_mem).1
    (bounds leftmost (among leftmost leftmost_mem)).1 ordered
    (bounds rightmost (among rightmost rightmost_mem)).2
    (inside last last_mem).2 more_before more_after

/-- One more span, and a padding beyond the largest position. -/
theorem ofSpans_widens_hugePadding :
    let text := ['a', 'b', ' ', 'c', 'd', ' ', ' ', 'e', 'f', ' ', 'g']
    let spans : List Span := [⟨3, 4, by decide⟩]
    let others : List Span := [⟨7, 8, by decide⟩, ⟨3, 4, by decide⟩]
    let padding : TrimPadding := { before := 0, after := 1 }
    let wider : TrimPadding := { before := 1, after := 9223372036854775808 }
    (spans ≠ [] ∧ (∀ span ∈ spans, span ∈ others) ∧
      (∀ span ∈ others, 0 ≤ span.first ∧ span.last < text.length) ∧
      padding.before ≤ wider.before ∧ padding.after ≤ wider.after) ∧
      ∀ mode, (ofSpans text others mode wider).windowStart ≤
          (ofSpans text spans mode padding).windowStart ∧
        (ofSpans text spans mode padding).windowEnd ≤
          (ofSpans text others mode wider).windowEnd := by
  intro text spans others padding wider
  have labelled : spans ≠ [] := List.cons_ne_nil _ _
  have among : ∀ span ∈ spans, span ∈ others := by
    simp [spans, others]
  have inside : ∀ span ∈ others, 0 ≤ span.first ∧ span.last < text.length := by
    simp [others, text]
  have more_before : padding.before ≤ wider.before := by decide
  have more_after : padding.after ≤ wider.after := by decide
  refine ⟨⟨labelled, among, inside, more_before, more_after⟩, fun mode => ?_⟩
  exact ofSpans_widens text mode labelled among inside more_before more_after

end Excerpt

end CaretReport
