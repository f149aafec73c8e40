import CaretReport.Proofs.ExcerptText

/-!
# Windows counted in words

A window counted in words reaches from the labels to a space on either side, and
the spaces that it keeps between that space and the labels are as many as its
padding asks for.  Where the text holds no more than so many, the window reaches
to the end of the text.  Only a label that ends on a space cuts the window short:
without padding it stops right behind the label.
-/

namespace CaretReport

/-- A window that starts there keeps a number of spaces in front of `first`. -/
structure KeepsBefore (text : List Char) (count : Nat) (first start : Int) :
    Prop where
  start_le : start ≤ first
  cut : start = 0 ∧ (slice text 0 first).count ' ' ≤ count ∨
    charAt? text (start - 1) = some ' ' ∧ (slice text start first).count ' ' = count

/-- A window that ends there keeps a number of spaces from `last` on. -/
structure KeepsAfter (text : List Char) (count : Nat) (last stop : Int) :
    Prop where
  le_stop : last + 1 ≤ stop
  cut : stop = text.length ∧ (slice text last text.length).count ' ' ≤ count ∨
    charAt? text stop = some ' ' ∧ (slice text last stop).count ' ' = count ∨
    count = 0 ∧ charAt? text last = some ' ' ∧ stop = last + 1

theorem occursAt_wordSeparator (text : List Char) (index : Nat) :
    occursAt wordSeparator text index = true ↔ text[index]? = some ' ' := by
  rw [occursAt, ← List.head?_drop]
  cases text.drop index with
  | nil => simp [wordSeparator]
  | cons character rest => simpa [wordSeparator] using eq_comm

/-- A slice grows by the character behind it. -/
theorem slice_succ (text : List Char) {lower stop : Nat} (ordered : lower ≤ stop) :
    slice text lower (stop + 1 : Nat) =
      slice text lower stop ++ text[stop]?.toList := by
  simp only [slice, Int.toNat_natCast]
  rw [List.take_add_one, List.drop_append]
  cases shown : text[stop]? with
  | none => simp
  | some character =>
      have inside := (List.getElem?_eq_some_iff.mp shown).1
      rw [List.length_take, Nat.min_eq_left (Nat.le_of_lt inside),
        Nat.sub_eq_zero_of_le ordered]
      rfl

/-- The places of the separator are counted by the spaces between them. -/
theorem length_places_wordSeparator (text : List Char) {lower stop : Nat}
    (ordered : lower ≤ stop) :
    (places wordSeparator text lower stop).length =
      (slice text lower stop).count ' ' := by
  induction stop, ordered using Nat.le_induction with
  | base => simp [places_of_le, slice]
  | succ stop ordered ih =>
      rw [places_append ordered (Nat.le_succ stop), places_singleton,
        slice_succ text ordered, List.length_append, List.count_append, ih]
      by_cases space : text[stop]? = some ' '
      · simp [(occursAt_wordSeparator text stop).mpr space, space]
      · have elsewhere : ¬ occursAt wordSeparator text stop = true :=
          fun occurs => space ((occursAt_wordSeparator text stop).mp occurs)
        cases shown : text[stop]? with
        | none => simp [elsewhere]
        | some character =>
            have other : character ≠ ' ' := by
              rintro rfl
              exact space shown
            simp [elsewhere, other]

theorem charAt?_natCast (text : List Char) (index : Nat) :
    charAt? text index = text[index]? := by
  simp [charAt?]

theorem keepsBefore_wordWindowStart (text : List Char) (count : Nat) {first : Int}
    (nonneg : 0 ≤ first) (inside : first ≤ text.length) :
    KeepsBefore text count first (wordWindowStart text count first) := by
  obtain ⟨first, rfl⟩ := Int.eq_ofNat_of_zero_le nonneg
  have stop : searchEnd text.length (some (first : Int)) = first := by
    simp only [searchEnd]
    split <;> omega
  have bound : first + 1 - wordSeparator.length = first := rfl
  simp only [wordWindowStart, stop, occurrencesBackward_eq_reverse, bound]
  split
  · rename_i few
    rw [List.getElem?_eq_none_iff, List.length_reverse,
      length_places_wordSeparator text (Nat.zero_le first)] at few
    exact ⟨nonneg, Or.inl ⟨rfl, few⟩⟩
  · rename_i index found
    obtain ⟨_, before, occurs⟩ :=
      mem_places.mp (List.mem_reverse.mp (List.mem_of_getElem? found))
    have kept := length_places_after found
    rw [length_places_wordSeparator text before] at kept
    refine ⟨by omega, Or.inr ⟨?_, kept⟩⟩
    rw [Int.add_sub_cancel, charAt?_natCast]
    exact (occursAt_wordSeparator text index).mp occurs

theorem keepsAfter_wordWindowEnd (text : List Char) (count : Nat) {last : Int}
    (nonneg : 0 ≤ last) (inside : last < text.length) :
    KeepsAfter text count last (wordWindowEnd text count last) := by
  obtain ⟨last, rfl⟩ := Int.eq_ofNat_of_zero_le nonneg
  have bound : text.length + 1 - wordSeparator.length = text.length := rfl
  simp only [wordWindowEnd, occurrences_eq_places, Int.toNat_natCast, bound]
  split
  · rename_i few
    rw [List.getElem?_eq_none_iff,
      length_places_wordSeparator text (by omega)] at few
    exact ⟨by omega, Or.inl ⟨rfl, few⟩⟩
  · rename_i index found
    obtain ⟨after, before, occurs⟩ := mem_places.mp (List.mem_of_getElem? found)
    have space := (occursAt_wordSeparator text index).mp occurs
    have kept := length_places_before found
    rw [← charAt?_natCast] at space
    rcases Nat.eq_or_lt_of_le after with rfl | later
    · -- The labels end on the space that cuts the window.
      rw [places_of_le (Nat.le_refl _), List.length_nil] at kept
      exact ⟨by omega, Or.inr (Or.inr ⟨kept.symm, space, by omega⟩)⟩
    · have stop : max (index : Int) (last + 1) = index := by omega
      rw [length_places_wordSeparator text after] at kept
      rw [stop]
      exact ⟨by omega, Or.inr (Or.inl ⟨space, kept⟩)⟩

namespace Excerpt

/-- The excerpt keeps as many words as the padding asks for around labels from
`first` to `last`, with an ellipsis on each side on which text is cut away. -/
structure KeepsWords (excerpt : Excerpt) (text : List Char)
    (padding : TrimPadding) (first last : Int) : Prop where
  before : KeepsBefore text padding.before first excerpt.windowStart
  after : KeepsAfter text padding.after last excerpt.windowEnd
  lead_eq : excerpt.lead = if 0 < excerpt.windowStart then leadingEllipsis else []
  trail_eq : excerpt.trail =
    if excerpt.windowEnd < text.length then trailingEllipsis else []
  text_eq : excerpt.text =
    excerpt.lead ++ slice text excerpt.windowStart excerpt.windowEnd ++
      excerpt.trail

/-- Around spans inside a text, the excerpt in words keeps the words that the
padding asks for, counted from the leftmost start and the rightmost end. -/
theorem ofSpans_keepsWords (text : List Char) (spans : List Span)
    (padding : TrimPadding) (labelled : spans ≠ [])
    (inside : ∀ span ∈ spans, 0 ≤ span.first ∧ span.last < text.length) :
    ∃ first last, (spans.map Span.first).min? = some first ∧
      (spans.map Span.last).max? = some last ∧
      (ofSpans text spans .words padding).KeepsWords text padding first last := by
  obtain ⟨first, first_eq⟩ : ∃ first, (spans.map Span.first).min? = some first :=
    Option.ne_none_iff_exists'.mp (by simpa using labelled)
  obtain ⟨last, last_eq⟩ : ∃ last, (spans.map Span.last).max? = some last :=
    Option.ne_none_iff_exists'.mp (by simpa using labelled)
  refine ⟨first, last, first_eq, last_eq, ?_⟩
  obtain ⟨leftmost, leftmost_mem, rfl⟩ :=
    List.mem_map.mp (List.min?_eq_some_iff.mp first_eq).1
  obtain ⟨rightmost, rightmost_mem, rfl⟩ :=
    List.mem_map.mp (List.max?_eq_some_iff.mp last_eq).1
  have ordered := leftmost.ordered
  have reach := rightmost.ordered
  have left := inside leftmost leftmost_mem
  have right := inside rightmost rightmost_mem
  have some_text : text ≠ [] := by
    rintro rfl
    rw [List.length_nil] at left
    omega
  have windowed : ofSpans text spans .words padding =
      ofWindow text (wordWindowStart text padding.before leftmost.first)
        (wordWindowEnd text padding.after rightmost.last) := by
    simp only [ofSpans, first_eq, last_eq, if_neg some_text, trimWindow]
  rw [windowed]
  constructor
  · exact keepsBefore_wordWindowStart text padding.before left.1 (by omega)
  · exact keepsAfter_wordWindowEnd text padding.after (by omega) right.2
  · rfl
  · rfl
  · rfl

/-- Two labels in a row of words, given out of order. -/
theorem ofSpans_keepsWords_unordered :
    let text := ['a', 'b', ' ', 'c', 'd', ' ', ' ', 'e', 'f', ' ', 'g']
    let spans : List Span := [⟨7, 8, by decide⟩, ⟨3, 4, by decide⟩]
    let padding : TrimPadding := { before := 0, after := 1 }
    (spans ≠ [] ∧
      ∀ span ∈ spans, 0 ≤ span.first ∧ span.last < text.length) ∧
      (ofSpans text spans .words padding).KeepsWords text padding 3 8 := by
  intro text spans padding
  have labelled : spans ≠ [] := List.cons_ne_nil _ _
  have inside : ∀ span ∈ spans, 0 ≤ span.first ∧ span.last < text.length := by
    simp [spans, text]
  obtain ⟨first, last, first_eq, last_eq, keeps⟩ :=
    ofSpans_keepsWords text spans padding labelled inside
  obtain rfl : 3 = first := Option.some.inj first_eq
  obtain rfl : 8 = last := Option.some.inj last_eq
  exact ⟨⟨labelled, inside⟩, keeps⟩

/-- A label that ends on a space ends its window when no word is kept behind it. -/
example :
    (ofSpans "a b c".toList [⟨0, 1, by decide⟩] .words
      { before := 0, after := 0 }).text = "a  ...".toList := by
  decide +kernel

end Excerpt

end CaretReport
