import CaretReport.Proofs.FilledLines

/-!
# What wrapping keeps of a text

The stretches that lay out a text hold everything of it but blanks.  So wrapping
loses nothing but blanks and carriage returns, adds nothing but hyphens, and
leaves lines that are tidy at their ends and keep the width.
-/

namespace CaretReport

namespace Stretch

variable {width : Nat} {stretch : Stretch}

theorem mem_line {character : Char} (member : character ∈ stretch.line) :
    character ∈ stretch.taken ∨ character = hyphen := by
  unfold line at member
  split at member
  · rcases List.mem_append.mp member with here | added
    · exact Or.inl here
    · exact Or.inr (List.mem_singleton.mp added)
  · exact Or.inl member

theorem Fits.exists_last (fits : stretch.Fits width) :
    ∃ last, stretch.line.getLast? = some last ∧ isBlank last = false := by
  unfold line
  split
  · exact ⟨hyphen, List.getLast?_concat, by decide⟩
  · exact fits.ends

theorem Fits.line_ne_nil (fits : stretch.Fits width) : stretch.line ≠ [] := by
  obtain ⟨last, found, _⟩ := fits.exists_last
  intro empty
  rw [empty] at found
  cases found

theorem Fits.lineBreak_not_mem_line (fits : stretch.Fits width) :
    '\n' ∉ stretch.line := by
  intro inside
  rcases mem_line inside with here | added
  · exact fits.unbroken here
  · cases added

end Stretch

namespace LaysOut

variable {width : Nat} {text : List Char} {stretches : List Stretch}
variable (laid : LaysOut width text stretches)

include laid

/-- The stretches hold every character of the text that is not blank once, in
order. -/
theorem filter_flatMap_taken :
    (stretches.flatMap Stretch.taken).filter (fun shown => !isBlank shown) =
      text.filter fun shown => !isBlank shown := by
  have no_blank {blanks : List Char}
      (blank : ∀ character ∈ blanks, isBlank character = true) :
      blanks.filter (fun shown => !isBlank shown) = [] := by
    rw [List.filter_eq_nil_iff]
    intro character member
    simp [blank character member]
  obtain ⟨rest, text_eq, rest_blank⟩ := laid.covers
  rw [text_eq, List.filter_append, no_blank rest_blank, List.append_nil,
    List.filter_flatMap, List.filter_flatMap]
  apply List.flatMap_congr
  intro stretch member
  rw [Stretch.source, List.filter_append,
    no_blank (laid.fits stretch member).skipped, List.nil_append]

theorem eq_nil_iff :
    stretches = [] ↔ ∀ character ∈ text, isBlank character = true := by
  constructor
  · rintro rfl
    obtain ⟨rest, text_eq, rest_blank⟩ := laid.covers
    rw [text_eq, List.flatMap_nil, List.nil_append]
    exact rest_blank
  · intro blank
    apply List.eq_nil_iff_forall_not_mem.mpr
    intro stretch member
    obtain ⟨last, found, shown⟩ := (laid.fits stretch member).ends
    have inside := laid.mem_of_mem_taken member (List.mem_of_getLast? found)
    rw [blank last inside] at shown
    cases shown

end LaysOut

theorem forall_blank_dropReturns {text : List Char} :
    (∀ character ∈ dropReturns text, isBlank character = true) ↔
      ∀ character ∈ text, isBlank character = true := by
  constructor
  · intro blank character member
    by_cases returns : character = '\r'
    · rw [returns]
      decide
    · exact blank character (List.mem_filter.mpr ⟨member, by simpa using returns⟩)
  · intro blank character member
    exact blank character (List.mem_of_mem_filter member)

theorem LaysOut.return_not_mem_line {width : Nat} {text : List Char}
    {stretches : List Stretch}
    (laid : LaysOut width (dropReturns text) stretches) {stretch : Stretch}
    (member : stretch ∈ stretches) : '\r' ∉ stretch.line := by
  intro inside
  rcases Stretch.mem_line inside with here | added
  · have kept := laid.mem_of_mem_taken member here
    simpa using (List.mem_filter.mp kept).2
  · cases added

/-- Wrapping loses nothing but blanks and adds nothing but hyphens inside words:
the lines are stretches of the text without its carriage returns, and together
they hold every character that is not blank once, in order. -/
theorem wrapText?_laysOut (text : List Char) {width : Int}
    (positive : 1 ≤ width) :
    ∃ stretches, LaysOut width.toNat (dropReturns text) stretches ∧
      wrapText? text width =
        .ok (if stretches = [] then [[]] else stretches.map Stretch.line) ∧
      (stretches.flatMap Stretch.taken).filter (fun shown => !isBlank shown) =
        (dropReturns text).filter fun shown => !isBlank shown := by
  obtain ⟨stretches, laid, lines_eq⟩ :=
    exists_laysOut_wrapLines (show 0 < width.toNat by omega) text
  refine ⟨stretches, laid, ?_, laid.filter_flatMap_taken⟩
  rw [wrapText?_eq_ok text positive, lines_eq]

/-- A word that is split, blanks at a cut, and two paragraphs. -/
theorem wrapText?_laysOut_reformat :
    let text := "to  reformat\r\n it ".toList
    let lines := ["to".toList, "refo-".toList, "rmat".toList, " it".toList]
    (1 : Int) ≤ 5 ∧ wrapText? text 5 = .ok lines ∧
      ∃ stretches, LaysOut 5 (dropReturns text) stretches ∧
        stretches.map Stretch.line = lines ∧
        (stretches.flatMap Stretch.taken).filter (fun shown => !isBlank shown) =
          "toreformatit".toList := by
  intro text lines
  have positive : (1 : Int) ≤ 5 := by decide
  have computed : wrapText? text 5 = .ok lines := by
    unfold text lines
    cbv
  have words : (dropReturns text).filter (fun shown => !isBlank shown) =
      "toreformatit".toList := by
    unfold text
    decide
  obtain ⟨stretches, laid, wrapped, kept⟩ := wrapText?_laysOut text positive
  rw [computed, Except.ok.injEq] at wrapped
  refine ⟨positive, computed, stretches, laid, ?_, kept.trans words⟩
  split at wrapped
  · unfold lines at wrapped
    cases wrapped
  · exact wrapped.symm

/-- No line of a wrapped text holds a line break or a carriage return, ends in a
blank, or is empty, unless it is the only one.  It keeps the width together with
its hyphen, or without it where the width is one.  The only line is empty exactly
if the text is blank. -/
theorem wrapText?_bounded (text : List Char) {width : Int}
    (positive : 1 ≤ width) :
    ∃ lines, wrapText? text width = .ok lines ∧
      (∀ line ∈ lines, '\n' ∉ line ∧ '\r' ∉ line ∧
        (∀ last, line.getLast? = some last → isBlank last = false) ∧
        (line = [] → lines = [[]]) ∧
        (2 ≤ width → (line.length : Int) ≤ width)) ∧
      (lines ≠ [[]] → ∃ stretches,
        LaysOut width.toNat (dropReturns text) stretches ∧
        lines = stretches.map Stretch.line ∧
        ∀ stretch ∈ stretches, (stretch.taken.length : Int) ≤ width) ∧
      (lines = [[]] ↔ ∀ character ∈ text, isBlank character = true) := by
  obtain ⟨stretches, laid, lines_eq⟩ :=
    exists_laysOut_wrapLines (show 0 < width.toNat by omega) text
  refine ⟨_, wrapText?_eq_ok text positive, ?_⟩
  rw [lines_eq, ← forall_blank_dropReturns, ← laid.eq_nil_iff]
  by_cases nothing : stretches = []
  · rw [if_pos nothing]
    refine ⟨?_, fun single => absurd rfl single, by simp [nothing]⟩
    intro line member
    rw [List.mem_singleton.mp member]
    refine ⟨List.not_mem_nil, List.not_mem_nil, by simp, fun _ => rfl, ?_⟩
    intro room
    rw [List.length_nil]
    omega
  · have not_single : stretches.map Stretch.line ≠ [[]] := by
      intro single
      have empty : [] ∈ stretches.map Stretch.line := by
        rw [single]
        exact List.mem_singleton_self []
      obtain ⟨stretch, member, line_eq⟩ := List.mem_map.mp empty
      exact (laid.fits stretch member).line_ne_nil line_eq
    rw [if_neg nothing]
    refine ⟨?_, fun _ => ⟨stretches, laid, rfl, ?_⟩, ?_⟩
    · intro line found
      obtain ⟨stretch, member, rfl⟩ := List.mem_map.mp found
      have fits := laid.fits stretch member
      refine ⟨fits.lineBreak_not_mem_line, laid.return_not_mem_line member, ?_,
        fun empty => absurd empty fits.line_ne_nil, ?_⟩
      · intro last ends
        obtain ⟨other, other_ends, shown⟩ := fits.exists_last
        rw [other_ends] at ends
        cases ends
        exact shown
      · intro room
        have kept := fits.line_le (by omega)
        omega
    · intro stretch member
      have kept := (laid.fits stretch member).taken_le
      omega
    · simp [nothing, not_single]

/-- Lines of one character beside a hyphen, and a text that is blank. -/
theorem wrapText?_bounded_narrow :
    let text := "ab c".toList
    (1 : Int) ≤ 1 ∧ wrapText? text 1 = .ok [['a', '-'], ['b'], ['c']] ∧
      (∃ stretches, LaysOut 1 (dropReturns text) stretches ∧
        [['a', '-'], ['b'], ['c']] = stretches.map Stretch.line ∧
        ∀ stretch ∈ stretches, (stretch.taken.length : Int) ≤ 1) ∧
      wrapText? "\t\r\n ".toList 1 = .ok [[]] := by
  intro text
  have positive : (1 : Int) ≤ 1 := by decide
  have computed : wrapText? text 1 = .ok [['a', '-'], ['b'], ['c']] := by
    unfold text
    cbv
  obtain ⟨lines, lines_eq, _, cut, _⟩ := wrapText?_bounded text positive
  obtain rfl := Except.ok.inj (computed.symm.trans lines_eq)
  obtain ⟨others, others_eq, _, _, blank⟩ :=
    wrapText?_bounded "\t\r\n ".toList positive
  obtain rfl := blank.mpr (List.all_eq_true.mp (by decide))
  exact ⟨positive, computed, cut (by decide), others_eq⟩

end CaretReport
