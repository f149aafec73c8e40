import CaretReport.Proofs.ConnectorColumns

/-!
# The lines of a segment

A segment is drawn as an underbar, a separator, and its callouts.  This file
carries the description of the rows over to the plain text of the lines: it
says what the column of every label holds on every line, and that no text
stands at or left of any connector.
-/

namespace CaretReport

/-- The visible text of the row. -/
def Row.plain (row : Row) : List Char :=
  row.art.plain ++ (row.text.map Line.plain).getD []

theorem Row.plain_line {row : Row} (wordless : row.art.Wordless) :
    row.line.plain = row.plain := by
  obtain ⟨art, text⟩ := row
  cases text with
  | none => exact (List.append_nil art.plain).symm
  | some text => exact wordless.shows.plain_extend text

theorem Row.solid_line {row : Row} (wordless : row.art.Wordless) :
    row.line.Solid := by
  obtain ⟨art, text⟩ := row
  cases text with
  | none => exact wordless.shows.solid
  | some text => exact Line.solid_extend wordless.shows.solid text

/-- Left of its text a row shows its glyphs. -/
theorem Row.shownAt_plain {row : Row} {column : Int}
    (nonneg : 0 ≤ column) (inside : column < row.art.plain.length) :
    shownAt row.plain column = shownAt row.art.plain column :=
  shownAt_append_left (by omega)

/-- A reset at the end changes no view of the lines in which it shows nothing. -/
theorem map_resetLast {Item : Type} {view : Line → Item}
    (kept : ∀ line, line.Solid → view line.reset = view line) {lines : List Line}
    (solid : ∀ line ∈ lines, line.Solid) :
    (resetLast lines).map view = lines.map view := by
  induction lines with
  | nil => rfl
  | cons line rest ih =>
      obtain ⟨line_solid, rest_solid⟩ := List.forall_mem_cons.mp solid
      cases rest with
      | nil =>
          rw [resetLast, List.map_singleton, List.map_singleton,
            kept line line_solid]
      | cons next rest => exact congrArg (List.cons (view line)) (ih rest_solid)

theorem wordless_underbar (first last : Int) (labels : List PlacedLabel) :
    (underbar first last labels).Wordless := by
  have longer (width : Int) (carets : List (Int × Option Rgb)) :
      ∀ (line : Line) (previous : Int) (color : Option Rgb), line.Wordless →
        (underbarFrom width line previous color carets).Wordless := by
    induction carets with
    | nil =>
        intro line previous color wordless
        exact wordless.rule _ _
    | cons caret rest ih =>
        intro line previous color wordless
        exact ih _ _ _ ((wordless.rule _ _).glyph _ _)
  exact longer _ _ _ _ _ (.space .empty first)

namespace Segment

/-- The line on which a label turns. -/
def turnLine (segment : Segment) (index : Nat) : Nat :=
  turnRow segment.sortedLabels index + 2

/-- The connector of a label leads down its column: from the underbar through
the lines on which it waits, past the turns of the labels before it, to its own
turn beside the label's message. -/
structure Leads (segment : Segment) (layout : Layout) (index : Nat)
    (label : PlacedLabel) : Prop where
  underbar : ∃ line, (segment.draw layout)[0]? = some line ∧
    shownAt line.plain (segment.first + label.position) = Glyph.down.char
  waits : ∀ number line, (segment.draw layout)[number]? = some line →
    0 < number → number < segment.turnLine index →
    (∀ earlier < index, number ≠ segment.turnLine earlier) →
    shownAt line.plain (segment.first + label.position) = Glyph.vertical.char
  passed : ∀ earlier other, earlier < index →
    segment.sortedLabels[earlier]? = some other →
    segment.turnLine earlier < segment.turnLine index ∧
      ∃ line, (segment.draw layout)[segment.turnLine earlier]? = some line ∧
        shownAt line.plain (segment.first + label.position) =
          if other.position < label.position then
            Glyph.rule.char
          else
            Glyph.rightTee.char
  turns : ∃ line, (segment.draw layout)[segment.turnLine index]? = some line ∧
    (shownAt line.plain (segment.first + label.position) =
      if label.position ∈ (segment.sortedLabels.drop (index + 1)).map
          PlacedLabel.position then
        Glyph.rightTee.char
      else
        Glyph.upCorner.char) ∧
    ∀ left : Int, 0 ≤ left → left < segment.first + label.position →
      shownAt line.plain left = ' '
  resolved : ∀ number line, (segment.draw layout)[number]? = some line →
    segment.turnLine index < number →
    (∀ later other, segment.sortedLabels[later]? = some other →
      other.position = label.position → segment.turnLine later < number) →
    shownAt line.plain (segment.first + label.position) = ' '

/-- Every line is a row of glyphs, followed by at most one line of text; the
texts are those of the labels in order, and each label turns beside the first
line of its message.  All text stands right of every connector. -/
structure KeepsTextApart (segment : Segment) (layout : Layout) : Prop where
  plain_eq : (segment.draw layout).map Line.plain =
    (segment.rows layout).map Row.plain
  glyphs : ∀ row ∈ segment.rows layout, ∀ shown ∈ row.art.plain,
    shown = ' ' ∨ ∃ shape : Glyph, shown = shape.char
  texts : (segment.rows layout).filterMap Row.text =
    segment.sortedLabels.flatMap PlacedLabel.texts
  beside : ∀ index label, segment.sortedLabels[index]? = some label →
    ∃ row, (segment.rows layout)[segment.turnLine index]? = some row ∧
      row.text = some label.message.first
  apart : ∀ row ∈ segment.rows layout, row.text ≠ none →
    ∀ label ∈ segment.labels,
      segment.first + label.position < row.art.plain.length

variable {segment : Segment}

theorem position_le {earlier later : Nat} {label other : PlacedLabel}
    (before : earlier < later)
    (found : segment.sortedLabels[earlier]? = some label)
    (next : segment.sortedLabels[later]? = some other) :
    label.position ≤ other.position := by
  obtain ⟨_, rfl⟩ := List.getElem?_eq_some_iff.mp found
  obtain ⟨_, rfl⟩ := List.getElem?_eq_some_iff.mp next
  exact List.pairwise_iff_getElem.mp pairwise_sortedLabels _ _ _ _ before

theorem turnLine_lt {earlier later : Nat} {other : PlacedLabel}
    (before : earlier < later)
    (found : segment.sortedLabels[later]? = some other) :
    segment.turnLine earlier < segment.turnLine later := by
  obtain ⟨inside, _⟩ := List.getElem?_eq_some_iff.mp found
  exact Nat.add_lt_add_right (turnRow_lt before inside) 2

theorem exists_underbar_caret (layout : Layout) (nonneg : 0 ≤ segment.first)
    {index : Nat} {label : PlacedLabel}
    (found : segment.sortedLabels[index]? = some label) :
    ∃ line, (segment.draw layout)[0]? = some line ∧
      shownAt line.plain (segment.first + label.position) =
        Glyph.down.char := by
  have member := List.mem_of_getElem? found
  have inside := segment.carets_inside label (mem_sortedLabels.mp member)
  obtain ⟨text, shows, barred, length⟩ := underbar_shows nonneg segment.ordered
    pairwise_sortedLabels fun other other_mem =>
      segment.carets_inside other (mem_sortedLabels.mp other_mem)
  refine ⟨underbar segment.first segment.last segment.sortedLabels, rfl, ?_⟩
  rw [shows.plain_eq, barred.barred _ (by omega) (by omega),
    if_pos (mem_caretColumns.mpr ⟨label, member, rfl⟩)]

theorem exists_stacked_sortedLabels (nonneg : 0 ≤ segment.first) :
    ∃ limit, Stacked segment.first limit segment.sortedLabels := by
  apply exists_stacked pairwise_sortedLabels
  intro label member
  have inside := segment.carets_inside label (mem_sortedLabels.mp member)
  omega

section Drawing

variable (layout : Layout)

theorem wordless_of_mem_rows {row : Row} (member : row ∈ segment.rows layout) :
    row.art.Wordless := by
  rcases List.mem_cons.mp member with rfl | member
  · exact wordless_underbar _ _ _
  · rcases List.mem_cons.mp member with rfl | member
    · exact wordless_separator _ _
    · exact wordless_of_mem_callouts member

/-- The rows introduce the lines of text of the labels, in order. -/
theorem filterMap_text_rows (segment : Segment) :
    (segment.rows layout).filterMap Row.text =
      segment.sortedLabels.flatMap PlacedLabel.texts :=
  filterMap_text_callouts layout segment.first segment.sortedLabels

theorem exists_label_of_mem_rows {row : Row} (member : row ∈ segment.rows layout)
    {text : Line} (beside : row.text = some text) :
    ∃ label ∈ segment.labels, text ∈ label.texts := by
  have shown : text ∈ (segment.rows layout).filterMap Row.text :=
    List.mem_filterMap.mpr ⟨row, member, beside⟩
  rw [filterMap_text_rows layout segment] at shown
  obtain ⟨label, found, inside⟩ := List.mem_flatMap.mp shown
  exact ⟨label, mem_sortedLabels.mp found, inside⟩

/-- The lines are the rows, but for the reset at the end. -/
theorem map_draw {Item : Type} {view : Line → Item}
    (kept : ∀ line, line.Solid → view line.reset = view line) (segment : Segment) :
    (segment.draw layout).map view =
      (segment.rows layout).map fun row => view row.line := by
  have solid : ∀ line ∈ (segment.rows layout).map Row.line, line.Solid := by
    intro line member
    obtain ⟨row, found, rfl⟩ := List.mem_map.mp member
    exact Row.solid_line (wordless_of_mem_rows layout found)
  rw [draw, map_resetLast kept solid, List.map_map]
  rfl

/-- The lines show what the rows show. -/
theorem map_plain_draw (segment : Segment) :
    (segment.draw layout).map Line.plain =
      (segment.rows layout).map Row.plain := by
  rw [map_draw layout fun _ => Line.plain_reset]
  apply List.map_congr_left
  intro row member
  exact Row.plain_line (wordless_of_mem_rows layout member)

theorem exists_row_of_line {number : Nat} {line : Line}
    (drawn : (segment.draw layout)[number]? = some line) :
    ∃ row, (segment.rows layout)[number]? = some row ∧
      line.plain = row.plain := by
  have same := congrArg (fun texts => texts[number]?)
    (map_plain_draw layout segment)
  simp only [List.getElem?_map, drawn, Option.map_some] at same
  obtain ⟨row, found, row_eq⟩ := Option.map_eq_some_iff.mp same.symm
  exact ⟨row, found, row_eq.symm⟩

theorem exists_line_of_row {number : Nat} {row : Row}
    (drawn : (segment.rows layout)[number]? = some row) :
    ∃ line, (segment.draw layout)[number]? = some line ∧
      line.plain = row.plain := by
  have same := congrArg (fun texts => texts[number]?)
    (map_plain_draw layout segment)
  simp only [List.getElem?_map, drawn, Option.map_some] at same
  exact Option.map_eq_some_iff.mp same

variable {limit : Int}
variable (stacked : Stacked segment.first limit segment.sortedLabels)

include stacked

/-- The row of a turn line. -/
theorem exists_turning_row {index : Nat} {label : PlacedLabel}
    (found : segment.sortedLabels[index]? = some label) :
    ∃ row, (segment.rows layout)[segment.turnLine index]? = some row ∧
      row.text = some label.message.first ∧
      row.art.Turns (segment.first + label.position) limit
        (Turn.mk segment.first label
          (segment.sortedLabels.drop (index + 1))).corner :=
  exists_turnRow layout stacked found

/-- Below the underbar, on a line on which no label turns, the connectors of
the labels that turn later wait. -/
theorem exists_waiting_row {number : Nat} {row : Row}
    (nonempty : segment.sortedLabels ≠ [])
    (drawn : (segment.rows layout)[number]? = some row) (below : 0 < number)
    (straight : ∀ index < segment.sortedLabels.length,
      number ≠ segment.turnLine index) :
    ∃ columns, row.art.Waits columns limit ∧
      ∀ column, column ∈ columns ↔
        ∃ index label, segment.sortedLabels[index]? = some label ∧
          number < segment.turnLine index ∧
          segment.first + label.position = column := by
  obtain ⟨before, rfl⟩ : ∃ before, number = before + 1 := ⟨number - 1, by omega⟩
  cases before with
  | zero =>
      obtain rfl : ⟨separator segment.first segment.sortedLabels, none⟩ = row :=
        Option.some.inj drawn
      refine ⟨caretColumns segment.first segment.sortedLabels,
        stacked.separator_waits nonempty, ?_⟩
      intro column
      rw [mem_caretColumns]
      constructor
      · rintro ⟨label, member, same⟩
        obtain ⟨index, found⟩ := List.mem_iff_getElem?.mp member
        exact ⟨index, label, found, Nat.succ_lt_succ (Nat.succ_pos _), same⟩
      · rintro ⟨index, label, found, _, same⟩
        exact ⟨label, List.mem_of_getElem? found, same⟩
  | succ before =>
      have rest_straight : ∀ index < segment.sortedLabels.length,
          before ≠ turnRow segment.sortedLabels index := by
        intro index inside same
        exact straight index inside (congrArg (· + 2) same)
      obtain ⟨columns, waits, same_columns⟩ :=
        exists_waits layout stacked drawn rest_straight
      refine ⟨columns, waits, ?_⟩
      intro column
      rw [same_columns]
      constructor
      · rintro ⟨label, ⟨index, found, later⟩, same⟩
        exact ⟨index, label, found, Nat.add_lt_add_right later 2, same⟩
      · rintro ⟨index, label, found, later, same⟩
        exact ⟨label, ⟨index, found, Nat.lt_of_add_lt_add_right later⟩, same⟩

section Label

variable {index : Nat} {label : PlacedLabel}
variable (found : segment.sortedLabels[index]? = some label)

include found

theorem caret_bounds :
    0 ≤ segment.first + label.position ∧
      segment.first + label.position ≤ limit := by
  have member := List.mem_of_getElem? found
  exact ⟨stacked.nonneg label member, stacked.bounds label member⟩

/-- On a line on which no label turns, the column of a label holds `│` if a
label with the same position turns later, and is blank otherwise. -/
theorem shownAt_straight {number : Nat} {line : Line}
    (drawn : (segment.draw layout)[number]? = some line) (below : 0 < number)
    (straight : ∀ index < segment.sortedLabels.length,
      number ≠ segment.turnLine index) :
    ((∃ later other, segment.sortedLabels[later]? = some other ∧
        number < segment.turnLine later ∧ other.position = label.position) →
      shownAt line.plain (segment.first + label.position) =
        Glyph.vertical.char) ∧
    ((∀ later other, segment.sortedLabels[later]? = some other →
        other.position = label.position → ¬ number < segment.turnLine later) →
      shownAt line.plain (segment.first + label.position) = ' ') := by
  obtain ⟨caret_first, caret_last⟩ := caret_bounds stacked found
  obtain ⟨row, row_eq, plain_eq⟩ := exists_row_of_line layout drawn
  obtain ⟨columns, waits, columns_iff⟩ :=
    exists_waiting_row layout stacked
      (List.ne_nil_of_mem (List.mem_of_getElem? found)) row_eq below straight
  have reaches := waits.reaches
  rw [plain_eq, Row.shownAt_plain caret_first (by omega),
    waits.shown _ caret_first caret_last]
  constructor
  · rintro ⟨later, other, other_found, pending, same⟩
    rw [if_pos ((columns_iff _).mpr
      ⟨later, other, other_found, pending, by rw [same]⟩)]
  · intro resolved
    rw [if_neg]
    intro member
    obtain ⟨later, other, other_found, pending, same⟩ :=
      (columns_iff _).mp member
    exact resolved later other other_found (by omega) pending

/-- The line on which a label turns, up to the rightmost caret. -/
theorem exists_turning_line :
    ∃ line, (segment.draw layout)[segment.turnLine index]? = some line ∧
      (∀ left : Int, 0 ≤ left → left < segment.first + label.position →
        shownAt line.plain left = ' ') ∧
      shownAt line.plain (segment.first + label.position) =
        (if label.position ∈ (segment.sortedLabels.drop (index + 1)).map
            PlacedLabel.position then
          Glyph.rightTee.char
        else
          Glyph.upCorner.char) ∧
      ∀ right : Int, segment.first + label.position < right → right ≤ limit →
        shownAt line.plain right = Glyph.rule.char := by
  obtain ⟨caret_first, caret_last⟩ := caret_bounds stacked found
  obtain ⟨row, row_eq, _, turns⟩ :=
    exists_turning_row layout stacked found
  obtain ⟨line, drawn, plain_eq⟩ := exists_line_of_row layout row_eq
  have reaches := turns.reaches
  refine ⟨line, drawn, ?_, ?_, ?_⟩
  · intro left left_nonneg before
    rw [plain_eq, Row.shownAt_plain left_nonneg (by omega)]
    exact turns.blank left left_nonneg before
  · rw [plain_eq, Row.shownAt_plain caret_first (by omega), turns.bent]
    simp only [Turn.corner, Turn.sharesPosition, List.any_eq_true,
      beq_iff_eq, List.mem_map]
    split <;> rfl
  · intro right after before
    rw [plain_eq, Row.shownAt_plain (by omega) (by omega)]
    exact turns.ruled right after before

/-- Before its own turn a connector goes straight on wherever no earlier label
turns. -/
theorem shownAt_waiting {number : Nat} {line : Line}
    (drawn : (segment.draw layout)[number]? = some line) (below : 0 < number)
    (before : number < segment.turnLine index)
    (distinct : ∀ earlier < index, number ≠ segment.turnLine earlier) :
    shownAt line.plain (segment.first + label.position) =
      Glyph.vertical.char := by
  have straight : ∀ other < segment.sortedLabels.length,
      number ≠ segment.turnLine other := by
    intro other inside
    rcases Nat.lt_trichotomy other index with earlier | rfl | later
    · exact distinct other earlier
    · exact Nat.ne_of_lt before
    · have after := turnLine_lt later (List.getElem?_eq_getElem inside)
      omega
  exact (shownAt_straight layout stacked found drawn below straight).1
    ⟨index, label, found, before, rfl⟩

/-- The turn of an earlier label crosses the connector, or branches off it. -/
theorem exists_passed_line {earlier : Nat} {other : PlacedLabel}
    (before : earlier < index)
    (other_found : segment.sortedLabels[earlier]? = some other) :
    ∃ line, (segment.draw layout)[segment.turnLine earlier]? = some line ∧
      shownAt line.plain (segment.first + label.position) =
        if other.position < label.position then
          Glyph.rule.char
        else
          Glyph.rightTee.char := by
  have ordered := position_le before other_found found
  obtain ⟨line, drawn, _, bent, ruled⟩ :=
    exists_turning_line layout stacked other_found
  refine ⟨line, drawn, ?_⟩
  split
  · exact ruled _ (by omega) (caret_bounds stacked found).2
  · have same : label.position = other.position := by omega
    have pending : label ∈ segment.sortedLabels.drop (earlier + 1) := by
      refine List.mem_iff_getElem?.mpr ⟨index - (earlier + 1), ?_⟩
      rw [List.getElem?_drop, ← found]
      congr 1
      omega
    rw [same, bent, if_pos]
    exact List.mem_map.mpr ⟨label, pending, same⟩

/-- A label that turns later, in another column, leaves the column blank. -/
theorem shownAt_later_turn {later : Nat} {other : PlacedLabel} {line : Line}
    (behind : index < later)
    (other_found : segment.sortedLabels[later]? = some other)
    (distinct : other.position ≠ label.position)
    (drawn : (segment.draw layout)[segment.turnLine later]? = some line) :
    shownAt line.plain (segment.first + label.position) = ' ' := by
  have ordered := position_le behind found other_found
  obtain ⟨other_line, other_drawn, blank, _⟩ :=
    exists_turning_line layout stacked other_found
  obtain rfl : other_line = line :=
    Option.some.inj (other_drawn.symm.trans drawn)
  exact blank _ (caret_bounds stacked found).1 (by omega)

/-- After the turns of all labels in its column the column is blank. -/
theorem shownAt_resolved {number : Nat} {line : Line}
    (drawn : (segment.draw layout)[number]? = some line)
    (after : segment.turnLine index < number)
    (resolved : ∀ later other, segment.sortedLabels[later]? = some other →
      other.position = label.position → segment.turnLine later < number) :
    shownAt line.plain (segment.first + label.position) = ' ' := by
  by_cases turning : ∃ later < segment.sortedLabels.length,
      number = segment.turnLine later
  · obtain ⟨later, inside, rfl⟩ := turning
    have other_found := List.getElem?_eq_getElem inside
    have behind : index < later := by
      rcases Nat.lt_trichotomy index later with before | rfl | earlier
      · exact before
      · exact absurd after (Nat.lt_irrefl _)
      · have earlier_turn := turnLine_lt earlier found
        omega
    refine shownAt_later_turn layout stacked found behind other_found ?_ drawn
    intro same
    exact Nat.lt_irrefl _ (resolved later _ other_found same)
  · have straight : ∀ other < segment.sortedLabels.length,
        number ≠ segment.turnLine other :=
      fun other inside same => turning ⟨other, inside, same⟩
    refine (shownAt_straight layout stacked found drawn (by omega)
      straight).2 ?_
    intro later other other_found same
    have turned := resolved later other other_found same
    omega

end Label

end Drawing

/-- The connector of every label leads from the underbar to its message. -/
theorem leads_of_getElem? (layout : Layout) (nonneg : 0 ≤ segment.first)
    {index : Nat} {label : PlacedLabel}
    (found : segment.sortedLabels[index]? = some label) :
    segment.Leads layout index label := by
  obtain ⟨limit, stacked⟩ := exists_stacked_sortedLabels nonneg
  constructor
  · exact exists_underbar_caret layout nonneg found
  · intro number line drawn below before distinct
    exact shownAt_waiting layout stacked found drawn below before distinct
  · intro earlier other before other_found
    exact ⟨turnLine_lt before found,
      exists_passed_line layout stacked found before other_found⟩
  · obtain ⟨line, drawn, blank, bent, _⟩ :=
      exists_turning_line layout stacked found
    exact ⟨line, drawn, bent, blank⟩
  · intro number line drawn after resolved
    exact shownAt_resolved layout stacked found drawn after resolved

theorem keepsTextApart (layout : Layout) (nonneg : 0 ≤ segment.first) :
    segment.KeepsTextApart layout := by
  obtain ⟨limit, stacked⟩ := exists_stacked_sortedLabels nonneg
  constructor
  · exact map_plain_draw layout segment
  · intro row member shown inside
    exact (wordless_of_mem_rows layout member).char_of_mem_plain inside
  · exact filterMap_text_rows layout segment
  · intro index label found
    obtain ⟨row, drawn, text, _⟩ :=
      exists_turning_row layout stacked found
    exact ⟨row, drawn, text⟩
  · intro row member texted label label_mem
    have inside := stacked.bounds label (mem_sortedLabels.mpr label_mem)
    rcases List.mem_cons.mp member with rfl | member
    · exact absurd rfl texted
    · rcases List.mem_cons.mp member with rfl | member
      · exact absurd rfl texted
      · have reaches := reaches_of_mem_callouts layout stacked member
        omega

/-- A segment with two carets in one column, one of them with a child. -/
def sharedColumn : Segment where
  first := 2
  last := 8
  ordered := by decide
  labels := [
    { position := 4, offset := 0, length := 7,
      message := ⟨.ofTokens [.text ['o', 'n', 'e']], []⟩, children := [],
      caretColor := none, highlightColor := none },
    { position := 1, offset := 1, length := 2,
      message := ⟨.ofTokens [.text ['t', 'w', 'o']],
        [.ofTokens [.text ['m', 'o', 'r', 'e']]]⟩, children := [],
      caretColor := none, highlightColor := none },
    { position := 4, offset := 3, length := 2,
      message := ⟨.ofTokens [.text ['l', 'a', 's', 't']], []⟩,
      children := [⟨⟨.ofTokens [.text ['s', 'u', 'b']], []⟩, none⟩],
      caretColor := none, highlightColor := none }]
  carets_inside := by decide

example : (sharedColumn.draw {}).map (fun line => String.ofList line.plain) = [
    "  ─┬──┬──",
    "   │  │",
    "   ╰────▶ two",
    "      │ │  more",
    "      │",
    "      ├─▶ one",
    "      │",
    "      ╰──┬──▶ last",
    "         │",
    "         ╰─────▶ sub"] := by
  cbv

end Segment

end CaretReport
