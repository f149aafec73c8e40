import CaretReport.Proofs.WrappedText

/-!
# The stretches of a wrapped text

Every line of a wrapped text is a stretch of the text, perhaps with a hyphen
behind it, and the characters between the stretches are blank.  This file says
what it means that stretches lay a text out, and how a layout is extended: by
blanks or by a further stretch in front of it, and by another layout behind it.
-/

namespace CaretReport

section Blanks

theorem exists_trimStart (text : List Char) :
    ∃ blanks, text = blanks ++ trimStart text ∧
      ∀ character ∈ blanks, isBlank character = true :=
  ⟨text.takeWhile isBlank, List.takeWhile_append_dropWhile.symm,
    List.all_eq_true.mp List.all_takeWhile⟩

/-- Trimming the end of a text leaves blanks out, and a blank is not the last
character of what it keeps. -/
theorem exists_trimEnd (text : List Char) :
    (∃ blanks, text = trimEnd text ++ blanks ∧
      ∀ character ∈ blanks, isBlank character = true) ∧
      (trimEnd text ≠ [] → ∃ last, (trimEnd text).getLast? = some last ∧
        isBlank last = false) := by
  induction text with
  | nil => exact ⟨⟨[], rfl, by simp⟩, fun kept => absurd rfl kept⟩
  | cons character rest ih =>
      obtain ⟨⟨blanks, rest_eq, all_blank⟩, ends⟩ := ih
      rw [trimEnd]
      split
      · rename_i nothing
        rw [nothing, List.nil_append] at rest_eq
        subst rest_eq
        split
        · rename_i blank
          exact ⟨⟨_, rfl, List.forall_mem_cons.mpr ⟨blank, all_blank⟩⟩,
            fun kept => absurd rfl kept⟩
        · rename_i shown
          exact ⟨⟨_, rfl, all_blank⟩, fun _ =>
            ⟨character, rfl, Bool.eq_false_iff.mpr shown⟩⟩
      · rename_i kept
        refine ⟨⟨blanks, ?_, all_blank⟩, fun _ => ?_⟩
        · rw [List.cons_append, ← rest_eq]
        · obtain ⟨last, found, shown⟩ := ends kept
          refine ⟨last, ?_, shown⟩
          rw [List.getLast?_cons, found]
          rfl

theorem lt_length_of_lastBlank? {text : List Char} {index : Nat}
    (found : lastBlank? text = some index) : index < text.length := by
  induction text generalizing index with
  | nil => cases found
  | cons character rest ih =>
      rw [lastBlank?] at found
      split at found
      · rename_i later later_found
        have inside := ih later_found
        rw [Option.some.injEq] at found
        rw [List.length_cons]
        omega
      · split at found
        · rw [Option.some.injEq] at found
          rw [List.length_cons]
          omega
        · cases found

theorem not_blank_of_lastBlank? {text : List Char}
    (none_found : lastBlank? text = none) :
    ∀ character ∈ text, isBlank character = false := by
  induction text with
  | nil => simp
  | cons character rest ih =>
      rw [lastBlank?] at none_found
      split at none_found
      · cases none_found
      · rename_i later
        split at none_found
        · cases none_found
        · rename_i shown
          exact List.forall_mem_cons.mpr
            ⟨Bool.eq_false_iff.mpr shown, ih later⟩

/-- A character in front of the first column that does not fit is shown, if no
blank is found there. -/
theorem exists_shown_of_lastBlank? {text : List Char} {width column : Nat}
    (none_found : lastBlank? (text.take (width + 1)) = none)
    (long : width < text.length) (within : column ≤ width) :
    ∃ shown, text[column]? = some shown ∧ isBlank shown = false := by
  have inside : column < text.length := by omega
  refine ⟨text[column], List.getElem?_eq_getElem inside,
    not_blank_of_lastBlank? none_found _ ?_⟩
  refine List.mem_of_getElem? (i := column) ?_
  rw [List.getElem?_take_of_lt (by omega), List.getElem?_eq_getElem inside]

end Blanks

/-- A stretch of a text that is set on a line of its own: the blanks passed over
in front of it, its characters, and whether a hyphen is added to them. -/
structure Stretch where
  skipped : List Char
  taken : List Char
  hyphenated : Bool
deriving DecidableEq

namespace Stretch

def source (stretch : Stretch) : List Char :=
  stretch.skipped ++ stretch.taken

def line (stretch : Stretch) : List Char :=
  if stretch.hyphenated then stretch.taken ++ [hyphen] else stretch.taken

/-- The stretch fits a line: nothing but blanks is passed over in front of it, it
has no line break, it ends in a character that is not blank, and it keeps the
width, together with its hyphen if the width has room for one. -/
structure Fits (width : Nat) (stretch : Stretch) : Prop where
  skipped : ∀ character ∈ stretch.skipped, isBlank character = true
  unbroken : '\n' ∉ stretch.taken
  ends : ∃ last, stretch.taken.getLast? = some last ∧ isBlank last = false
  taken_le : stretch.taken.length ≤ width
  line_le : 2 ≤ width → stretch.line.length ≤ width

/-- The stretch starts right behind what stands in front of it, with a character
that is not blank. -/
def GoesOn (stretch : Stretch) : Prop :=
  stretch.skipped = [] ∧
    ∃ first, stretch.taken.head? = some first ∧ isBlank first = false

/-- Stretches in front of which further blanks are passed over. -/
def afterBlanks (blanks : List Char) : List Stretch → List Stretch
  | [] => []
  | first :: others =>
      { first with skipped := blanks ++ first.skipped } :: others

@[simp]
theorem map_line_afterBlanks (blanks : List Char) (stretches : List Stretch) :
    (afterBlanks blanks stretches).map line = stretches.map line := by
  cases stretches <;> rfl

end Stretch

/-- The stretches make up the text in order, with nothing but blanks in front of,
between and behind them, and each fits a line of the width.  Behind a hyphenated
stretch, the next one goes on. -/
structure LaysOut (width : Nat) (text : List Char) (stretches : List Stretch) :
    Prop where
  covers : ∃ rest, text = stretches.flatMap Stretch.source ++ rest ∧
    ∀ character ∈ rest, isBlank character = true
  fits : ∀ stretch ∈ stretches, stretch.Fits width
  hyphens : ∀ index stretch, stretches[index]? = some stretch →
    stretch.hyphenated = true →
      ∃ next, stretches[index + 1]? = some next ∧ next.GoesOn

namespace LaysOut

variable {width : Nat} {text : List Char} {stretches : List Stretch}

theorem nil (blank : ∀ character ∈ text, isBlank character = true) :
    LaysOut width text [] where
  covers := ⟨text, rfl, blank⟩
  fits := by simp
  hyphens := by simp

theorem cons (laid : LaysOut width text stretches) {stretch : Stretch}
    (fits : stretch.Fits width)
    (goesOn : stretch.hyphenated = true →
      ∃ next, stretches[0]? = some next ∧ next.GoesOn) :
    LaysOut width (stretch.source ++ text) (stretch :: stretches) where
  covers := by
    obtain ⟨rest, text_eq, rest_blank⟩ := laid.covers
    refine ⟨rest, ?_, rest_blank⟩
    rw [List.flatMap_cons, List.append_assoc, ← text_eq]
  fits := List.forall_mem_cons.mpr ⟨fits, laid.fits⟩
  hyphens index other found hyphenated := by
    cases index with
    | zero =>
        obtain rfl : stretch = other := Option.some.inj found
        exact goesOn hyphenated
    | succ index => exact laid.hyphens index other found hyphenated

/-- Further blanks in front of a text are passed over. -/
theorem skip (laid : LaysOut width text stretches) {blanks : List Char}
    (blank : ∀ character ∈ blanks, isBlank character = true) :
    LaysOut width (blanks ++ text) (Stretch.afterBlanks blanks stretches) := by
  obtain ⟨rest, text_eq, rest_blank⟩ := laid.covers
  cases stretches with
  | nil =>
      rw [List.flatMap_nil, List.nil_append] at text_eq
      subst text_eq
      exact nil (List.forall_mem_append.mpr ⟨blank, rest_blank⟩)
  | cons first others =>
      obtain ⟨first_fits, others_fit⟩ := List.forall_mem_cons.mp laid.fits
      refine ⟨⟨rest, ?_, rest_blank⟩, ?_, ?_⟩
      · rw [text_eq]
        simp [Stretch.afterBlanks, Stretch.source]
      · refine List.forall_mem_cons.mpr ⟨?_, others_fit⟩
        exact { first_fits with
          skipped := List.forall_mem_append.mpr ⟨blank, first_fits.skipped⟩ }
      · intro index stretch found hyphenated
        cases index with
        | zero =>
            cases found
            exact laid.hyphens 0 first rfl hyphenated
        | succ index => exact laid.hyphens (index + 1) stretch found hyphenated

/-- Two texts are laid out one after the other.  The blanks at the end of the
first are passed over in front of the second. -/
theorem append {tail : List Char} {others : List Stretch}
    (laid : LaysOut width text stretches)
    (later : LaysOut width tail others) :
    ∃ blanks, LaysOut width (text ++ tail)
      (stretches ++ Stretch.afterBlanks blanks others) := by
  obtain ⟨blanks, text_eq, blank⟩ := laid.covers
  have moved := later.skip blank
  obtain ⟨rest, tail_eq, rest_blank⟩ := moved.covers
  refine ⟨blanks, ⟨⟨rest, ?_, rest_blank⟩, ?_, ?_⟩⟩
  · rw [text_eq, List.append_assoc, tail_eq, List.flatMap_append,
      List.append_assoc]
  · exact List.forall_mem_append.mpr ⟨laid.fits, moved.fits⟩
  · intro index stretch found hyphenated
    by_cases early : index < stretches.length
    · rw [List.getElem?_append_left early] at found
      obtain ⟨next, next_found, goesOn⟩ :=
        laid.hyphens index stretch found hyphenated
      obtain ⟨inside, _⟩ := List.getElem?_eq_some_iff.mp next_found
      exact ⟨next, by rwa [List.getElem?_append_left inside], goesOn⟩
    · rw [List.getElem?_append_right (by omega)] at found
      obtain ⟨next, next_found, goesOn⟩ :=
        moved.hyphens _ stretch found hyphenated
      refine ⟨next, ?_, goesOn⟩
      rw [List.getElem?_append_right (by omega), ← next_found]
      congr 1
      omega

theorem mem_of_mem_taken (laid : LaysOut width text stretches)
    {stretch : Stretch} (member : stretch ∈ stretches)
    {character : Char} (inside : character ∈ stretch.taken) :
    character ∈ text := by
  obtain ⟨rest, text_eq, _⟩ := laid.covers
  rw [text_eq]
  exact List.mem_append_left rest (List.mem_flatMap.mpr
    ⟨stretch, member, List.mem_append_right stretch.skipped inside⟩)

/-- A text that starts with a character that is not blank goes on at once. -/
theorem goesOn_of_head? (laid : LaysOut width text stretches) {first : Char}
    (starts : text.head? = some first) (shown : isBlank first = false) :
    ∃ next, stretches[0]? = some next ∧ next.GoesOn := by
  obtain ⟨rest, text_eq, rest_blank⟩ := laid.covers
  cases stretches with
  | nil =>
      rw [List.flatMap_nil, List.nil_append] at text_eq
      subst text_eq
      rw [rest_blank first (List.mem_of_head? starts)] at shown
      cases shown
  | cons next others =>
      obtain ⟨fits, _⟩ := List.forall_mem_cons.mp laid.fits
      have front : text.head? = next.source.head? := by
        obtain ⟨last, found, _⟩ := fits.ends
        rw [text_eq, List.flatMap_cons, List.append_assoc,
          List.head?_append_of_ne_nil]
        rintro nothing
        rw [(List.append_eq_nil_iff.mp nothing).2] at found
        cases found
      have skipped : next.skipped = [] := by
        cases blanks : next.skipped with
        | nil => rfl
        | cons blank more =>
            rw [starts, Stretch.source, blanks] at front
            cases front
            have all_blank := fits.skipped
            rw [blanks] at all_blank
            rw [all_blank first List.mem_cons_self] at shown
            cases shown
      refine ⟨next, rfl, skipped, first, ?_, shown⟩
      rw [← starts, front, Stretch.source, skipped, List.nil_append]

end LaysOut

end CaretReport
