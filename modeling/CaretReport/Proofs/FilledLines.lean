import CaretReport.Proofs.WrappedStretches

/-!
# Lines filled with words

Wrapping is greedy.  A line ends behind a word only where the next word would
not have fitted, and a word is split only if it is too long for a line of its
own.  Both follow from where the last blank is looked for: up to and including
the first column that does not fit.  Each paragraph is laid out on its own, and
the layouts of the paragraphs together lay out the text.
-/

namespace CaretReport

/-- The word at the start of a text. -/
def leadingWord (text : List Char) : List Char :=
  text.takeWhile fun shown => !isBlank shown

/-- A text up to the end of its first word. -/
def throughFirstWord (text : List Char) : List Char :=
  text.takeWhile isBlank ++ leadingWord (trimStart text)

section Words

theorem leadingWord_append {word : List Char}
    (shown : ∀ character ∈ word, isBlank character = false)
    (rest : List Char) : leadingWord (word ++ rest) = word ++ leadingWord rest :=
  List.takeWhile_append_of_pos (by simpa using shown)

theorem leadingWord_trimStart_ne_nil {text : List Char} {shown : Char}
    (member : shown ∈ text) (not_blank : isBlank shown = false) :
    leadingWord (trimStart text) ≠ [] := by
  induction text with
  | nil => cases member
  | cons character rest ih =>
      by_cases blank : isBlank character = true
      · have later : shown ∈ rest := by
          rcases List.mem_cons.mp member with rfl | later
          · simp [blank] at not_blank
          · exact later
        simpa [trimStart, blank] using ih later
      · simp [trimStart, leadingWord, blank]

theorem throughFirstWord_append_blanks {blanks : List Char}
    (blank : ∀ character ∈ blanks, isBlank character = true)
    (text : List Char) :
    throughFirstWord (blanks ++ text) = blanks ++ throughFirstWord text := by
  simp only [throughFirstWord, trimStart, List.takeWhile_append_of_pos blank,
    List.dropWhile_append_of_pos blank, List.append_assoc]

theorem length_le_throughFirstWord {word : List Char}
    (shown : ∀ character ∈ word, isBlank character = false)
    (rest : List Char) :
    word.length ≤ (throughFirstWord (word ++ rest)).length := by
  cases word with
  | nil => simp
  | cons first word =>
      have starts : isBlank first = false := shown first List.mem_cons_self
      have at_once : throughFirstWord (first :: word ++ rest) =
          leadingWord (first :: word ++ rest) := by
        simp [throughFirstWord, trimStart, starts]
      rw [at_once, leadingWord_append shown, List.length_append]
      omega

/-- Where a last blank is found, a blank stands and none behind it. -/
theorem exists_drop_eq_of_lastBlank? {text : List Char} {index : Nat}
    (found : lastBlank? text = some index) :
    ∃ blank later, text.drop index = blank :: later ∧ isBlank blank = true ∧
      ∀ character ∈ later, isBlank character = false := by
  induction text generalizing index with
  | nil => cases found
  | cons character rest ih =>
      rw [lastBlank?] at found
      split at found
      · rename_i later later_found
        rw [Option.some.injEq] at found
        rw [← found, List.drop_succ_cons]
        exact ih later_found
      · rename_i nothing
        split at found
        · rename_i blank
          rw [Option.some.injEq] at found
          rw [← found, List.drop_zero]
          exact ⟨character, rest, rfl, blank, not_blank_of_lastBlank? nothing⟩
        · cases found

variable {line : List Char} {width : Nat} (long : width < line.length)

include long

/-- A line without a blank in reach starts with a word that does not fit. -/
theorem lt_length_leadingWord
    (none_found : lastBlank? (line.take (width + 1)) = none) :
    width < (leadingWord line).length := by
  have parts := leadingWord_append (not_blank_of_lastBlank? none_found)
    (line.drop (width + 1))
  rw [List.take_append_drop] at parts
  rw [parts, List.length_append, List.length_take]
  omega

/-- The word behind the last blank in reach does not fit. -/
theorem lt_length_throughFirstWord {column : Nat}
    (found : lastBlank? (line.take (width + 1)) = some column) :
    width < column + (throughFirstWord (line.drop column)).length := by
  obtain ⟨blank, later, reach_eq, isBlank, shown⟩ :=
    exists_drop_eq_of_lastBlank? found
  have reach_length := congrArg List.length reach_eq
  have inside := lt_length_of_lastBlank? found
  rw [List.length_drop, List.length_take, List.length_cons] at reach_length
  rw [List.length_take] at inside
  have line_eq : line.drop column =
      [blank] ++ (later ++ line.drop (width + 1)) := by
    have parts : line.drop column =
        (line.take (width + 1)).drop column ++ line.drop (width + 1) := by
      conv_lhs => rw [← List.take_append_drop (width + 1) line]
      exact List.drop_append_of_le_length (by rw [List.length_take]; omega)
    rw [parts, reach_eq]
    rfl
  have word := length_le_throughFirstWord shown (line.drop (width + 1))
  rw [line_eq, throughFirstWord_append_blanks
    (List.forall_mem_singleton.mpr isBlank), List.length_append,
    List.length_singleton]
  omega

end Words

/-- The line of the stretch has no room for more of the text behind it.  Behind a
whole word, the next word does not fit; and a word is split only if it does not
fit a line of its own. -/
structure Stretch.FillsLine (width : Nat) (stretch : Stretch)
    (behind : List Char) : Prop where
  followed : leadingWord (trimStart behind) ≠ []
  whole : stretch.hyphenated = false →
    width < (stretch.taken ++ throughFirstWord behind).length
  split : stretch.hyphenated = true →
    width < (leadingWord (stretch.taken ++ behind)).length

/-- The stretches lay the paragraph out, and each fills its line, unless it is the
last. -/
structure Fills (width : Nat) (paragraph : List Char)
    (stretches : List Stretch) : Prop extends
    LaysOut width paragraph stretches where
  full : ∀ front stretch next others behind,
    stretches = front ++ stretch :: next :: others →
    paragraph = (front ++ [stretch]).flatMap Stretch.source ++ behind →
      stretch.FillsLine width behind

namespace Fills

variable {width : Nat} {text : List Char} {stretches : List Stretch}

theorem nil (blank : ∀ character ∈ text, isBlank character = true) :
    Fills width text [] where
  toLaysOut := .nil blank
  full front stretch next others behind split := by simp at split

theorem cons (fills : Fills width text stretches) {stretch : Stretch}
    (fits : stretch.Fits width)
    (goesOn : stretch.hyphenated = true →
      ∃ next, stretches[0]? = some next ∧ next.GoesOn)
    (full : stretches ≠ [] → stretch.FillsLine width text) :
    Fills width (stretch.source ++ text) (stretch :: stretches) where
  toLaysOut := fills.toLaysOut.cons fits goesOn
  full front other next others behind split text_eq := by
    cases front with
    | nil =>
        cases split
        obtain rfl : text = behind := by simpa using text_eq
        exact full (List.cons_ne_nil next others)
    | cons first front =>
        cases split
        exact fills.full front other next others behind rfl
          (by simpa using text_eq)

theorem skip (fills : Fills width text stretches) {blanks : List Char}
    (blank : ∀ character ∈ blanks, isBlank character = true) :
    Fills width (blanks ++ text) (Stretch.afterBlanks blanks stretches) where
  toLaysOut := fills.toLaysOut.skip blank
  full front stretch next others behind split text_eq := by
    cases stretches with
    | nil => simp [Stretch.afterBlanks] at split
    | cons first rest =>
        cases front with
        | nil =>
            cases split
            have filled := fills.full [] first next others behind rfl
              (by simpa [Stretch.source] using text_eq)
            exact ⟨filled.followed, filled.whole, filled.split⟩
        | cons other front =>
            cases split
            exact fills.full (first :: front) stretch next others behind rfl
              (by simpa [Stretch.source] using text_eq)

/-- Where a stretch follows, there is a further word. -/
theorem leadingWord_ne_nil (fills : Fills width text stretches)
    (nonempty : stretches ≠ []) : leadingWord (trimStart text) ≠ [] := by
  obtain ⟨stretch, member⟩ := List.exists_mem_of_ne_nil stretches nonempty
  obtain ⟨last, found, shown⟩ := (fills.fits stretch member).ends
  exact leadingWord_trimStart_ne_nil
    (fills.mem_of_mem_taken member (List.mem_of_getLast? found)) shown

/-- A short line is set without the blanks at its end, unless nothing else is
left of it. -/
theorem exists_trimmed (fills : Fills width text stretches) {line : List Char}
    (unbroken : '\n' ∉ line) (short : line.length ≤ width)
    (full : stretches ≠ [] → width < (line ++ throughFirstWord text).length) :
    ∃ others, Fills width (line ++ text) others ∧
      others.map Stretch.line =
        [trimEnd line].filter (fun line => !line.isEmpty) ++
          stretches.map Stretch.line := by
  obtain ⟨⟨blanks, line_eq, blank⟩, ends⟩ := exists_trimEnd line
  have skipping := fills.skip blank
  by_cases nothing : trimEnd line = []
  · rw [nothing, List.nil_append] at line_eq
    subst line_eq
    exact ⟨_, skipping, by simp [nothing]⟩
  · have kept := trimEnd_sublist line
    have narrow : (trimEnd line).length ≤ width := Nat.le_trans kept.length_le short
    have fits : Stretch.Fits width ⟨[], trimEnd line, false⟩ :=
      { skipped := by simp
        unbroken := fun inside => unbroken (kept.subset inside)
        ends := ends nothing
        taken_le := narrow
        line_le := fun _ => narrow }
    have filled : Stretch.afterBlanks blanks stretches ≠ [] →
        Stretch.FillsLine width ⟨[], trimEnd line, false⟩ (blanks ++ text) := by
      intro more
      have nonempty : stretches ≠ [] := by
        rintro rfl
        exact more rfl
      refine ⟨skipping.leadingWord_ne_nil more, fun _ => ?_, by simp⟩
      rw [throughFirstWord_append_blanks blank, ← List.append_assoc, ← line_eq]
      exact full nonempty
    have laid := skipping.cons fits (by simp) filled
    rw [Stretch.source, List.nil_append, ← List.append_assoc, ← line_eq] at laid
    exact ⟨_, laid, by simp [Stretch.line, nothing]⟩

/-- A word without a blank in reach is split and hyphenated, in front of what is
left of its line. -/
theorem hyphenate {line : List Char}
    (fills : Fills width (line.drop (splitColumn width)) stretches)
    (positive : 0 < width) (unbroken : '\n' ∉ line)
    (long : width < line.length)
    (found : lastBlank? (line.take (width + 1)) = none) :
    Fills width line
      (⟨[], line.take (splitColumn width), true⟩ :: stretches) := by
  have columns : 1 ≤ splitColumn width ∧ splitColumn width ≤ width ∧
      (2 ≤ width → splitColumn width + 1 ≤ width) := by
    unfold splitColumn
    omega
  have taken_length : (line.take (splitColumn width)).length =
      splitColumn width := by
    rw [List.length_take]
    omega
  -- The characters on either side of the cut stand before the first column
  -- that does not fit, and no blank was found there.
  obtain ⟨last, last_found, last_shown⟩ :=
    exists_shown_of_lastBlank? found long
      (show splitColumn width - 1 ≤ width by omega)
  obtain ⟨next, next_found, next_shown⟩ :=
    exists_shown_of_lastBlank? found long columns.2.1
  have fits : Stretch.Fits width ⟨[], line.take (splitColumn width), true⟩ :=
    { skipped := by simp
      unbroken := fun inside => unbroken (List.mem_of_mem_take inside)
      ends := by
        refine ⟨last, ?_, last_shown⟩
        rw [List.getLast?_take, if_neg (by omega), last_found]
        rfl
      taken_le := by
        rw [taken_length]
        exact columns.2.1
      line_le := by
        intro room
        rw [Stretch.line, if_pos rfl, List.length_append, taken_length]
        exact columns.2.2 room }
  have starts : (line.drop (splitColumn width)).head? = some next := by
    rw [List.head?_drop, next_found]
  have goesOn := fills.goesOn_of_head? starts next_shown
  have filled : stretches ≠ [] →
      Stretch.FillsLine width ⟨[], line.take (splitColumn width), true⟩
        (line.drop (splitColumn width)) := by
    intro nonempty
    refine ⟨fills.leadingWord_ne_nil nonempty, by simp, fun _ => ?_⟩
    rw [List.take_append_drop]
    exact lt_length_leadingWord long found
  have joined := fills.cons fits (fun _ => goesOn) filled
  rwa [Stretch.source, List.nil_append, List.take_append_drop] at joined

end Fills

/-- The lines of a paragraph lay it out and are filled. -/
theorem exists_fills_wrapParagraph {width : Nat} (positive : 0 < width)
    {line : List Char} (unbroken : '\n' ∉ line) :
    ∃ stretches, Fills width line stretches ∧
      stretches.map Stretch.line =
        (wrapParagraph width line).filter fun line => !line.isEmpty := by
  fun_induction wrapParagraph width line with
  | case1 line long found ih =>
      obtain ⟨blanks, line_eq, blank⟩ := exists_trimStart line
      obtain ⟨stretches, fills, lines_eq⟩ :=
        ih fun inside => unbroken ((trimStart_sublist line).subset inside)
      refine ⟨Stretch.afterBlanks blanks stretches, ?_, by simpa using lines_eq⟩
      rw [line_eq]
      exact fills.skip blank
  | case2 line long before found ih =>
      obtain ⟨blanks, later_eq, blank⟩ :=
        exists_trimStart (line.drop (before + 1))
      obtain ⟨stretches, fills, lines_eq⟩ := ih fun inside =>
        unbroken (List.mem_of_mem_drop ((trimStart_sublist _).subset inside))
      have later := fills.skip blank
      rw [← later_eq] at later
      have inside := lt_length_of_lastBlank? found
      rw [List.length_take] at inside
      have taken_length : (line.take (before + 1)).length = before + 1 := by
        rw [List.length_take]
        omega
      obtain ⟨all, fills, all_eq⟩ := later.exists_trimmed
        (fun inside => unbroken (List.mem_of_mem_take inside))
        (by rw [taken_length]; omega) fun _ => by
          rw [List.length_append, taken_length]
          exact lt_length_throughFirstWord long found
      rw [List.take_append_drop] at fills
      refine ⟨all, fills, ?_⟩
      rw [all_eq, Stretch.map_line_afterBlanks, lines_eq, ← List.filter_append]
      rfl
  | case3 line long found ih =>
      obtain ⟨stretches, fills, lines_eq⟩ :=
        ih fun inside => unbroken (List.mem_of_mem_drop inside)
      refine ⟨_, fills.hyphenate positive unbroken long found, ?_⟩
      rw [List.map_cons, lines_eq, List.filter_cons_of_pos (by simp)]
      rfl
  | case4 line short =>
      have nothing : Fills width [] [] := .nil (by simp)
      obtain ⟨stretches, fills, lines_eq⟩ := nothing.exists_trimmed unbroken
        (Nat.le_of_not_lt short) fun more => absurd rfl more
      exact ⟨stretches, by simpa using fills, by simpa using lines_eq⟩

/-- The paragraphs of a text are laid out one by one, with filled lines. -/
theorem exists_fills_paragraphs {width : Nat} (positive : 0 < width)
    {paragraphs : List (List Char)}
    (unbroken : ∀ paragraph ∈ paragraphs, '\n' ∉ paragraph) :
    ∃ layouts, List.Forall₂ (Fills width) paragraphs layouts ∧
      layouts.flatten.map Stretch.line =
        (paragraphs.flatMap (wrapParagraph width)).filter
          fun line => !line.isEmpty := by
  induction paragraphs with
  | nil => exact ⟨[], .nil, rfl⟩
  | cons paragraph rest ih =>
      obtain ⟨here, later⟩ := List.forall_mem_cons.mp unbroken
      obtain ⟨layouts, all_fill, lines_eq⟩ := ih later
      obtain ⟨stretches, fills, here_eq⟩ :=
        exists_fills_wrapParagraph positive here
      refine ⟨stretches :: layouts, .cons fills all_fill, ?_⟩
      rw [List.flatten_cons, List.map_append, here_eq, lines_eq,
        List.flatMap_cons, List.filter_append]

/-- The layouts of paragraphs, one after the other, lay out the joined text. -/
theorem exists_laysOut_join {width : Nat} {paragraphs : List (List Char)}
    {layouts : List (List Stretch)}
    (all_fill : List.Forall₂ (Fills width) paragraphs layouts) :
    ∃ stretches, LaysOut width (joinWithChar '\n' paragraphs) stretches ∧
      stretches.map Stretch.line = layouts.flatten.map Stretch.line := by
  induction all_fill with
  | nil => exact ⟨[], .nil (by simp [joinWithChar]), rfl⟩
  | @cons paragraph stretches rest layouts fills all_fill ih =>
      obtain ⟨others, laid, lines_eq⟩ := ih
      cases rest with
      | nil =>
          cases all_fill
          exact ⟨stretches, fills.toLaysOut, by simp⟩
      | cons next rest =>
          have blank : ∀ character ∈ ['\n'], isBlank character = true :=
            List.forall_mem_singleton.mpr (by decide)
          obtain ⟨blanks, joined⟩ := fills.toLaysOut.append (laid.skip blank)
          refine ⟨_, joined, ?_⟩
          simp [lines_eq]

/-- The lines of a wrapped text are those of its paragraphs, laid out with
filled lines.  Without any stretch there is one empty line. -/
theorem exists_fills_wrapLines {width : Nat} (positive : 0 < width)
    (text : List Char) :
    ∃ layouts, List.Forall₂ (Fills width) (splitAtChar '\n' (dropReturns text))
        layouts ∧
      wrapLines width text =
        if layouts.flatten = [] then [[]]
        else layouts.flatten.map Stretch.line := by
  obtain ⟨layouts, all_fill, lines_eq⟩ := exists_fills_paragraphs positive
    fun paragraph
      (member : paragraph ∈ splitAtChar '\n' (dropReturns text)) =>
        not_mem_of_mem_splitAtChar member
  refine ⟨layouts, all_fill, ?_⟩
  simp only [wrapLines, ← lines_eq, List.map_eq_nil_iff]

/-- The lines of a wrapped text lay it out.  Without any stretch there is one
empty line. -/
theorem exists_laysOut_wrapLines {width : Nat} (positive : 0 < width)
    (text : List Char) :
    ∃ stretches, LaysOut width (dropReturns text) stretches ∧
      wrapLines width text =
        if stretches = [] then [[]] else stretches.map Stretch.line := by
  obtain ⟨layouts, all_fill, wrapped⟩ := exists_fills_wrapLines positive text
  obtain ⟨stretches, laid, lines_eq⟩ := exists_laysOut_join all_fill
  rw [joinWithChar_splitAtChar] at laid
  have none_iff : stretches = [] ↔ layouts.flatten = [] := by
    rw [← List.map_eq_nil_iff (f := Stretch.line), lines_eq,
      List.map_eq_nil_iff]
  exact ⟨stretches, laid, by simp only [wrapped, lines_eq, none_iff]⟩

theorem wrapText?_eq_ok (text : List Char) {width : Int} (positive : 1 ≤ width) :
    wrapText? text width = .ok (wrapLines width.toNat text) :=
  if_neg (by omega)

/-- Wrapping is greedy: the lines of each paragraph are filled.  A line that ends
behind a word, with another line of its paragraph below it, has no room for the
next word; and a word is split only if it is wider than a line. -/
theorem wrapText?_fills (text : List Char) {width : Int}
    (positive : 1 ≤ width) :
    ∃ layouts,
      List.Forall₂ (Fills width.toNat) (splitAtChar '\n' (dropReturns text))
        layouts ∧
      wrapText? text width =
        .ok (if layouts.flatten = [] then [[]]
          else layouts.flatten.map Stretch.line) := by
  obtain ⟨layouts, all_fill, wrapped⟩ :=
    exists_fills_wrapLines (show 0 < width.toNat by omega) text
  exact ⟨layouts, all_fill, by rw [wrapText?_eq_ok text positive, wrapped]⟩

/-- Two words on one line, a word that is split twice, and a second paragraph. -/
theorem wrapText?_fills_overlong :
    let text := "a bb  overlong\r\nc".toList
    let lines := ["a bb".toList, "ove-".toList, "rlo-".toList, "ng".toList,
      "c".toList]
    (1 : Int) ≤ 4 ∧ wrapText? text 4 = .ok lines ∧
      ∃ upper lower, Fills 4 "a bb  overlong".toList upper ∧
        Fills 4 "c".toList lower ∧ (upper ++ lower).map Stretch.line = lines := by
  intro text lines
  have positive : (1 : Int) ≤ 4 := by decide
  have computed : wrapText? text 4 = .ok lines := by
    unfold text lines
    cbv
  have paragraphs : splitAtChar '\n' (dropReturns text) =
      ["a bb  overlong".toList, "c".toList] := by
    unfold text
    cbv
  obtain ⟨layouts, all_fill, wrapped⟩ := wrapText?_fills text positive
  rw [paragraphs] at all_fill
  obtain ⟨upper, _, upper_fills, rest_fill, rfl⟩ :=
    List.forall₂_cons_left_iff.mp all_fill
  obtain ⟨lower, _, lower_fills, nothing, rfl⟩ :=
    List.forall₂_cons_left_iff.mp rest_fill
  cases nothing
  rw [computed, Except.ok.injEq] at wrapped
  refine ⟨positive, computed, upper, lower, upper_fills, lower_fills, ?_⟩
  split at wrapped
  · unfold lines at wrapped
    cases wrapped
  · simpa using wrapped.symm

end CaretReport
