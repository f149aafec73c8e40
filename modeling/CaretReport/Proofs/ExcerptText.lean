import CaretReport.Excerpt
import CaretReport.Proofs.Occurrences
import Mathlib.Data.List.MinMax

/-!
# Reading positions off an excerpt

The window of an excerpt lies inside the text and around the labels, in both
ways of counting the padding.  For a position inside the window nothing
saturates, and the excerpt shows, in the column of the position, the character
that the text has there.
-/

namespace CaretReport

/-- A window counted in words starts at or before the first label. -/
theorem wordWindowStart_bounds (text : List Char) (before : Nat) {first : Int}
    (nonneg : 0 ≤ first) :
    0 ≤ wordWindowStart text before first ∧
      wordWindowStart text before first ≤ first := by
  simp only [wordWindowStart, occurrencesBackward_eq_reverse]
  split
  · exact ⟨Int.le_refl 0, nonneg⟩
  · rename_i index found
    have member := List.mem_reverse.mp (List.mem_of_getElem? found)
    have below := (mem_places.mp member).2.1
    have stop : searchEnd text.length (some first) ≤ first.toNat := by
      simp only [searchEnd]
      split <;> omega
    have one : wordSeparator.length = 1 := rfl
    omega

/-- A window counted in words ends after the last label. -/
theorem wordWindowEnd_bounds (text : List Char) (after : Nat) {last : Int}
    (inside : last < text.length) :
    last < wordWindowEnd text after last ∧
      wordWindowEnd text after last ≤ text.length := by
  simp only [wordWindowEnd, occurrences_eq_places]
  split
  · exact ⟨inside, Int.le_refl _⟩
  · rename_i index found
    have member := mem_places.mp (List.mem_of_getElem? found)
    have one : wordSeparator.length = 1 := rfl
    omega

/-- The window around the labels lies inside the text. -/
theorem trimWindow_bounds (text : List Char) (mode : TrimMode)
    (padding : TrimPadding) {first last : Int} (nonneg : 0 ≤ first)
    (ordered : first ≤ last) (inside : last < text.length)
    (bounded : (text.length : Int) ≤ maxPosition) :
    0 ≤ (trimWindow text mode padding first last).1 ∧
      (trimWindow text mode padding first last).1 ≤ first ∧
      last < (trimWindow text mode padding first last).2 ∧
      (trimWindow text mode padding first last).2 ≤ text.length := by
  cases mode with
  | words =>
      have start := wordWindowStart_bounds text padding.before nonneg
      have stop := wordWindowEnd_bounds text padding.after inside
      exact ⟨start.1, start.2, stop.1, stop.2⟩
  | chars =>
      simp only [trimWindow, charWindow, satSub, satAdd]
      omega

/-- The character at a position of a text. -/
def charAt? (text : List Char) (position : Int) : Option Char :=
  if 0 ≤ position then text[position.toNat]? else none

namespace Excerpt

/-- The excerpt is the window of the text between its ellipsis marks. -/
structure Windows (excerpt : Excerpt) (text : List Char) : Prop where
  start_nonneg : 0 ≤ excerpt.windowStart
  end_le : excerpt.windowEnd ≤ text.length
  lead_short : excerpt.lead.length ≤ 4
  text_eq : excerpt.text =
    excerpt.lead ++ slice text excerpt.windowStart excerpt.windowEnd ++
      excerpt.trail

theorem windows_untrimmed (text : List Char) :
    (untrimmed text).Windows text where
  start_nonneg := Int.le_refl 0
  end_le := Int.le_refl _
  lead_short := by simp [untrimmed]
  text_eq := by simp [untrimmed, slice]

theorem windows_ofWindow {text : List Char} {start stop : Int}
    (nonneg : 0 ≤ start) (inside : stop ≤ text.length) :
    (ofWindow text start stop).Windows text where
  start_nonneg := nonneg
  end_le := inside
  lead_short := by
    simp only [ofWindow]
    split <;> simp [leadingEllipsis]
  text_eq := rfl

/-- The window of an excerpt is laid around the leftmost start and the rightmost
end of the spans. -/
theorem exists_ofSpans_eq {text : List Char} {spans : List Span}
    (nonempty : text ≠ []) (labelled : spans ≠ []) :
    ∃ leftmost ∈ spans, ∃ rightmost ∈ spans,
      (∀ span ∈ spans,
        leftmost.first ≤ span.first ∧ span.last ≤ rightmost.last) ∧
      ∀ mode padding, ofSpans text spans mode padding =
        ofWindow text
          (trimWindow text mode padding leftmost.first rightmost.last).1
          (trimWindow text mode padding leftmost.first rightmost.last).2 := by
  obtain ⟨first, first_eq⟩ : ∃ first, (spans.map Span.first).min? = some first :=
    Option.ne_none_iff_exists'.mp (by simpa using labelled)
  obtain ⟨last, last_eq⟩ : ∃ last, (spans.map Span.last).max? = some last :=
    Option.ne_none_iff_exists'.mp (by simpa using labelled)
  obtain ⟨first_mem, first_le⟩ := List.min?_eq_some_iff.mp first_eq
  obtain ⟨last_mem, le_last⟩ := List.max?_eq_some_iff.mp last_eq
  obtain ⟨leftmost, leftmost_mem, rfl⟩ := List.mem_map.mp first_mem
  obtain ⟨rightmost, rightmost_mem, rfl⟩ := List.mem_map.mp last_mem
  refine ⟨leftmost, leftmost_mem, rightmost, rightmost_mem, ?_, ?_⟩
  · intro span member
    exact ⟨first_le _ (List.mem_map_of_mem member),
      le_last _ (List.mem_map_of_mem member)⟩
  · intro mode padding
    simp only [ofSpans, first_eq, last_eq, if_neg nonempty]

theorem ofSpans_eq_untrimmed {text : List Char} {spans : List Span}
    (nothing : text = [] ∨ spans = []) (mode : TrimMode) (padding : TrimPadding) :
    ofSpans text spans mode padding = untrimmed text := by
  unfold ofSpans
  split
  · rcases nothing with empty | rfl
    · exact if_pos empty
    · contradiction
  · rfl

/-- The excerpt around spans inside a text is a window that holds them. -/
theorem windows_ofSpans {text : List Char} {spans : List Span}
    (mode : TrimMode) (padding : TrimPadding)
    (inside : ∀ span ∈ spans, 0 ≤ span.first ∧ span.last < text.length)
    (bounded : (text.length : Int) ≤ maxPosition) :
    (ofSpans text spans mode padding).Windows text ∧
      ∀ span ∈ spans,
        (ofSpans text spans mode padding).windowStart ≤ span.first ∧
          span.last < (ofSpans text spans mode padding).windowEnd := by
  by_cases nothing : text = [] ∨ spans = []
  · rw [ofSpans_eq_untrimmed nothing]
    exact ⟨windows_untrimmed text, inside⟩
  · rw [not_or] at nothing
    obtain ⟨leftmost, leftmost_mem, rightmost, rightmost_mem, bounds, window⟩ :=
      exists_ofSpans_eq nothing.1 nothing.2
    have ordered : leftmost.first ≤ rightmost.last :=
      Int.le_trans leftmost.ordered (bounds leftmost leftmost_mem).2
    obtain ⟨start_nonneg, start_le, stop_gt, stop_le⟩ :=
      trimWindow_bounds text mode padding (inside leftmost leftmost_mem).1
        ordered (inside rightmost rightmost_mem).2 bounded
    rw [window]
    refine ⟨windows_ofWindow start_nonneg stop_le, fun span member => ?_⟩
    exact ⟨Int.le_trans start_le (bounds span member).1,
      Int.lt_of_le_of_lt (bounds span member).2 stop_gt⟩

theorem mem_of_mem_slice {text : List Char} {start stop : Int} {shown : Char}
    (member : shown ∈ slice text start stop) : shown ∈ text :=
  List.mem_of_mem_take (List.mem_of_mem_drop member)

/-- An excerpt holds characters of its text, dots and blanks. -/
theorem mem_of_mem_text_ofSpans {text : List Char} {spans : List Span}
    {mode : TrimMode} {padding : TrimPadding} {shown : Char}
    (member : shown ∈ (ofSpans text spans mode padding).text) :
    shown ∈ text ∨ shown = '.' ∨ shown = ' ' := by
  have ellipsis {marks : List Char} {trimmed : Prop} [Decidable trimmed]
      (dots : ∀ mark ∈ marks, mark = '.' ∨ mark = ' ')
      (inside : shown ∈ if trimmed then marks else []) :
      shown = '.' ∨ shown = ' ' := by
    split at inside
    · exact dots shown inside
    · cases inside
  unfold ofSpans at member
  split at member
  · split at member
    · exact Or.inl member
    · simp only [ofWindow, List.mem_append] at member
      rcases member with (lead | window) | trail
      · exact Or.inr (ellipsis (by simp [leadingEllipsis]) lead)
      · exact Or.inl (mem_of_mem_slice window)
      · exact Or.inr (ellipsis (by simp [trailingEllipsis]) trail)
  · exact Or.inl member

section Reading

variable {excerpt : Excerpt} {text : List Char}
variable (window : excerpt.Windows text)
variable (bounded : (text.length : Int) + 8 ≤ maxPosition)
variable {position : Int} (after : excerpt.windowStart ≤ position)
variable (before : position < excerpt.windowEnd)

include window bounded after before

/-- Inside the window nothing saturates. -/
theorem column_eq :
    excerpt.column position =
      position - excerpt.windowStart + excerpt.lead.length := by
  have start := window.start_nonneg
  have stop := window.end_le
  have lead := window.lead_short
  simp only [column, satSub, satAdd]
  omega

theorem column_bounds :
    0 ≤ excerpt.column position ∧
      excerpt.column position < excerpt.text.length := by
  have start := window.start_nonneg
  have stop := window.end_le
  rw [column_eq window bounded after before, window.text_eq]
  simp only [slice, List.length_append, List.length_drop, List.length_take]
  omega

/-- The excerpt shows a position of the window in its column. -/
theorem getElem?_column :
    excerpt.text[(excerpt.column position).toNat]? = text[position.toNat]? := by
  have start := window.start_nonneg
  have stop := window.end_le
  have place : (excerpt.column position).toNat =
      excerpt.lead.length + (position - excerpt.windowStart).toNat := by
    rw [column_eq window bounded after before]
    omega
  have inside : (position - excerpt.windowStart).toNat <
      (slice text excerpt.windowStart excerpt.windowEnd).length := by
    simp only [slice, List.length_drop, List.length_take]
    omega
  have source : excerpt.windowStart.toNat +
      (position - excerpt.windowStart).toNat = position.toNat := by omega
  rw [window.text_eq, place, List.append_assoc,
    List.getElem?_append_right (Nat.le_add_right _ _), Nat.add_sub_cancel_left,
    List.getElem?_append_left inside, slice, List.getElem?_drop,
    List.getElem?_take_of_lt (by omega), source]

theorem charAt?_column :
    charAt? excerpt.text (excerpt.column position) = charAt? text position := by
  have start := window.start_nonneg
  have nonneg := (column_bounds window bounded after before).1
  rw [charAt?, charAt?, if_pos nonneg, if_pos (by omega)]
  exact getElem?_column window bounded after before

end Reading

theorem getElem?_slice (text : List Char) (start stop : Int) (index : Nat) :
    (slice text start stop)[index]? =
      if start.toNat + index < stop.toNat then
        text[start.toNat + index]?
      else
        none := by
  rw [slice, List.getElem?_drop, List.getElem?_take]

section Spans

variable {excerpt : Excerpt} {text : List Char}
variable (window : excerpt.Windows text)
variable (bounded : (text.length : Int) + 8 ≤ maxPosition)
variable {span : Span} (after : excerpt.windowStart ≤ span.first)
variable (before : span.last < excerpt.windowEnd)

include window bounded after before

/-- A span of the window keeps its width and stays inside the excerpt. -/
theorem rebase_bounds :
    0 ≤ (excerpt.rebase span).first ∧
      (excerpt.rebase span).last < excerpt.text.length ∧
      (excerpt.rebase span).last < maxPosition ∧
      (excerpt.rebase span).last - (excerpt.rebase span).first =
        span.last - span.first := by
  have ordered := span.ordered
  have start := window.start_nonneg
  have stop := window.end_le
  have lead := window.lead_short
  have first_eq := column_eq window bounded after (by omega)
  have last_eq := column_eq window bounded (by omega) before
  have last_bounds := column_bounds window bounded
    (show excerpt.windowStart ≤ span.last by omega) before
  change 0 ≤ excerpt.column span.first ∧
    excerpt.column span.last < excerpt.text.length ∧
    excerpt.column span.last < maxPosition ∧
    excerpt.column span.last - excerpt.column span.first = _
  omega

/-- A span inside the window is shown character by character. -/
theorem slice_rebase :
    slice excerpt.text (excerpt.rebase span).first
        ((excerpt.rebase span).last + 1) =
      slice text span.first (span.last + 1) := by
  have ordered := span.ordered
  have start := window.start_nonneg
  have first_eq := column_eq window bounded after (by omega)
  have last_eq := column_eq window bounded (by omega) before
  apply List.ext_getElem?
  intro index
  rw [getElem?_slice, getElem?_slice]
  change (if (excerpt.column span.first).toNat + index <
    (excerpt.column span.last + 1).toNat then _ else _) = _
  by_cases inside : span.first.toNat + index < (span.last + 1).toNat
  · have place : (excerpt.rebase span).first.toNat + index =
        (excerpt.column (span.first + index)).toNat := by
      rw [column_eq window bounded (by omega) (by omega)]
      change (excerpt.column span.first).toNat + index = _
      rw [first_eq]
      omega
    have source : (span.first + index).toNat = span.first.toNat + index := by
      omega
    rw [if_pos inside, if_pos (by rw [first_eq, last_eq]; omega), place,
      getElem?_column window bounded (by omega) (by omega), source]
  · rw [if_neg inside, if_neg (by rw [first_eq, last_eq]; omega)]

end Spans

end Excerpt

end CaretReport
