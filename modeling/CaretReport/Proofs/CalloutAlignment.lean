import CaretReport.Proofs.RunWidths

/-!
# The columns of a callout

The columns of a callout are computed four times over: by the rules on its turn
row, by the fill of the rows below it, on the rows with the hub alone, and on
the rows of its children.  This file follows the glyphs of every row with the
columns in which they stand, and proves that the four agree: the hub and the
markers each keep to one column, and all texts of a message start at a fixed
distance from its marker.
-/

namespace CaretReport

namespace Line

/-- The line is all glyphs and ends where the column `width` starts, and each of
the marks stands in its column. -/
structure Holds (width : Int) (marks : List (Int × Char)) (line : Line) :
    Prop where
  wordless : line.Wordless
  width_eq : line.width = width
  shown : ∀ column mark, (column, mark) ∈ marks →
    0 ≤ column ∧ column < width ∧ shownAt line.plain column = mark

variable {line longer : Line} {width wider : Int} {marks : List (Int × Char)}

theorem holds_of_width (wordless : line.Wordless) (width_eq : line.width = width) :
    line.Holds width [] :=
  ⟨wordless, width_eq, by simp⟩

namespace Holds

theorem length_eq (holds : line.Holds width marks) :
    (line.plain.length : Int) = width := by
  rw [← holds.width_eq, holds.wordless.shows.width_eq]

/-- A mark stays where it is when more glyphs follow. -/
theorem continues (holds : line.Holds width marks)
    (continues : line.Continues longer) (width_eq : longer.width = wider) :
    longer.Holds wider marks := by
  refine ⟨continues.wordless, width_eq, fun column mark found => ?_⟩
  obtain ⟨nonneg, inside, shown⟩ := holds.shown column mark found
  have covered : column < line.plain.length := by
    rw [holds.length_eq]
    exact inside
  refine ⟨nonneg, ?_, ?_⟩
  · rw [← width_eq, continues.wordless.shows.width_eq]
    exact continues.reaches covered
  · rw [continues.shownAt_eq covered nonneg (Int.le_refl _), shown]

theorem rule (holds : line.Holds width marks) {count : Int} (nonneg : 0 ≤ count)
    (style : Option Style) (same : wider = width + count) :
    (line.rule count style).Holds wider marks := by
  apply holds.continues ((continues_refl holds.wordless).rule count style)
  rw [width_rule, holds.width_eq]
  omega

theorem space (holds : line.Holds width marks) {count : Int} (nonneg : 0 ≤ count)
    (same : wider = width + count) : (line.space count).Holds wider marks := by
  apply holds.continues ((continues_refl holds.wordless).space count)
  rw [width_space, holds.width_eq]
  omega

theorem mark (holds : longer.Holds wider marks) {column : Int} {mark : Char}
    (nonneg : 0 ≤ column) (inside : column < wider)
    (shown : shownAt longer.plain column = mark) :
    longer.Holds wider ((column, mark) :: marks) := by
  refine ⟨holds.wordless, holds.width_eq, fun place other found => ?_⟩
  rcases List.mem_cons.mp found with here | old
  · cases here
    exact ⟨nonneg, inside, shown⟩
  · exact holds.shown place other old

theorem glyph (holds : line.Holds width marks) (shape : Glyph)
    (style : Option Style) (same : wider = width + 1) :
    (line.glyph shape style).Holds wider ((width, shape.char) :: marks) := by
  have length := holds.length_eq
  have kept : (line.glyph shape style).Holds wider marks := by
    apply holds.continues ((continues_refl holds.wordless).glyph shape style)
    rw [width_glyph, holds.width_eq, same]
  refine kept.mark (by omega) (by omega) ?_
  rw [(holds.wordless.shows.glyph shape style).plain_eq,
    shownAt_append_right (by omega), length, Int.sub_self]
  rfl

/-- A run of blanks leaves its first column blank. -/
theorem blank (holds : line.Holds width marks) {count : Int} (positive : 0 < count)
    (same : wider = width + count) :
    (line.space count).Holds wider ((width, ' ') :: marks) := by
  have length := holds.length_eq
  refine (holds.space (Int.le_of_lt positive) same).mark (by omega) (by omega) ?_
  rw [(holds.wordless.shows.space count).plain_eq,
    shownAt_append_right (by omega), shownAt_blanks]

end Holds

end Line

/-- The mark stands in its column, and the text starts `gap` columns to the right
of it and ends the line. -/
structure Introduces (column : Int) (mark : Char) (gap : Int) (text : Line)
    (line : List Char) : Prop where
  marked : shownAt line column = mark
  introduced : ∃ art, line = art ++ text.plain ∧ (art.length : Int) = column + gap

/-- The lines show a message beside a column: the mark stands there on the first
line and a `│` on all others, on which the text starts one column further
right. -/
inductive ShowsMessage (layout : Layout) (column : Int) (mark : Glyph)
    (message : Message) : List (List Char) → Prop where
  | intro {first : List Char} {rest : List (List Char)}
      (opens : Introduces column mark.char (layout.arrowPadding + 1) message.first
        first)
      (goes_on : List.Forall₂ (fun text line => Introduces column
        Glyph.vertical.char (layout.arrowPadding + 2) text line)
          message.rest rest) :
      ShowsMessage layout column mark message (first :: rest)

/-- The column holds one character on the first line, and another on all
others. -/
inductive RunsDown (column : Int) (top below : Char) : List (List Char) → Prop where
  | intro {first : List Char} {rest : List (List Char)}
      (opens : shownAt first column = top)
      (goes_on : ∀ line ∈ rest, shownAt line column = below) :
      RunsDown column top below (first :: rest)

/-- The lines show children below a hub.  The hub runs down to the last child,
and every child has its marker to the right of it. -/
inductive ShowsChildren (layout : Layout) (hub : Int) :
    List PlacedChild → List (List Char) → Prop where
  | last {child : PlacedChild} {lines : List (List Char)}
      (shows : ShowsMessage layout (hub + layout.childIndent + 3)
        (Turn.messageMark child.message) child.message lines)
      (closes : RunsDown hub Glyph.upCorner.char ' ' lines) :
      ShowsChildren layout hub [child] lines
  | before {child next : PlacedChild} {rest : List PlacedChild}
      {lines others : List (List Char)} {between : List Char}
      (shows : ShowsMessage layout (hub + layout.childIndent + 3)
        (Turn.messageMark child.message) child.message lines)
      (branches : RunsDown hub Glyph.rightTee.char Glyph.vertical.char lines)
      (separates : shownAt between hub = Glyph.vertical.char)
      (goes_on : ShowsChildren layout hub (next :: rest) others) :
      ShowsChildren layout hub (child :: next :: rest)
        (lines ++ between :: others)

/-- The lines are the callout of a label, where `last` is the column of the
rightmost caret that is not resolved yet. -/
inductive ShowsCallout (layout : Layout) (last : Int) (label : PlacedLabel) :
    List (List Char) → Prop where
  | childless {lines : List (List Char)} (none : label.children = [])
      (shows : ShowsMessage layout (last + 2) .arrow label.message lines) :
      ShowsCallout layout last label lines
  | parent {lines others : List (List Char)} {between : List Char}
      (shows : ShowsMessage layout (last + 3 + 3)
        (Turn.messageMark label.message) label.message lines)
      (branches : RunsDown (last + 3) Glyph.down.char Glyph.vertical.char lines)
      (separates : shownAt between (last + 3) = Glyph.vertical.char)
      (goes_on : ShowsChildren layout (last + 3) label.children others) :
      ShowsCallout layout last label (lines ++ between :: others)

section Rows

variable {row : Row} {width column : Int} {marks others : List (Int × Char)}

theorem Row.shownAt_of_holds {mark : Char} (holds : row.art.Holds width marks)
    (found : (column, mark) ∈ marks) : shownAt row.plain column = mark := by
  obtain ⟨nonneg, inside, shown⟩ := holds.shown column mark found
  rw [Row.shownAt_plain nonneg (by rw [holds.length_eq]; exact inside), shown]

theorem Row.introduces_of_holds {mark : Char} {text : Line} {gap : Int}
    (holds : row.art.Holds (column + gap) marks) (beside : row.text = some text)
    (found : (column, mark) ∈ marks) :
    Introduces column mark gap text row.plain where
  marked := Row.shownAt_of_holds holds found
  introduced := by
    refine ⟨row.art.plain, ?_, holds.length_eq⟩
    rw [Row.plain, beside]
    rfl

variable {next : Line → Row} {message : Message} {further : Int}

/-- Rows that hold a marker in one column show their message beside it. -/
theorem showsMessage_of_holds {layout : Layout} {mark : Glyph}
    (opens : row.art.Holds (column + (layout.arrowPadding + 1)) marks)
    (goes_on : ∀ text,
      (next text).art.Holds (column + (layout.arrowPadding + 2)) others)
    (beside : row.text = some message.first)
    (besides : ∀ text, (next text).text = some text)
    (marked : (column, mark.char) ∈ marks)
    (barred : (column, Glyph.vertical.char) ∈ others) :
    ShowsMessage layout column mark message
      ((row :: message.rest.map next).map Row.plain) := by
  refine .intro (Row.introduces_of_holds opens beside marked) ?_
  rw [List.map_map, List.forall₂_map_right_iff, List.forall₂_same]
  intro text _
  exact Row.introduces_of_holds (goes_on text) (besides text) barred

theorem runsDown_of_holds {top below : Char} {texts : List Line}
    (opens : row.art.Holds width marks)
    (goes_on : ∀ text, (next text).art.Holds further others)
    (topped : (column, top) ∈ marks) (kept : (column, below) ∈ others) :
    RunsDown column top below ((row :: texts.map next).map Row.plain) := by
  refine .intro (Row.shownAt_of_holds opens topped) ?_
  intro line member
  rw [List.map_map, List.mem_map] at member
  obtain ⟨text, _, rfl⟩ := member
  exact Row.shownAt_of_holds (goes_on text) kept

end Rows

namespace Turn

/-- The column of the rightmost caret of the label and the pending labels. -/
def lastCaret (turn : Turn) : Int :=
  turn.first + turn.hub

variable {turn : Turn} (ordered : turn.Ordered) (layout : Layout)

include ordered

theorem holds_head {width column : Int} (nonneg : 0 ≤ width)
    (same : column = turn.first + turn.label.position + 1 + width) :
    (turn.head width).Holds column [] :=
  Line.holds_of_width (turn.wordless_head width)
    ((width_head ordered nonneg).trans same.symm)

theorem holds_childStart : turn.childStart.Holds (turn.lastCaret + 3) [] :=
  Line.holds_of_width turn.wordless_childStart (width_childStart ordered)

theorem holds_hubLine :
    turn.hubLine.Holds (turn.lastCaret + 3 + 1)
      [(turn.lastCaret + 3, Glyph.vertical.char)] :=
  (holds_childStart ordered).glyph .vertical turn.style rfl

theorem holds_plainFirst :
    (turn.plainFirst layout).art.Holds
      (turn.lastCaret + 2 + (layout.arrowPadding + 1))
      [(turn.lastCaret + 2, Glyph.arrow.char)] := by
  have inside := turn.le_hub List.mem_cons_self
  have ruled := holds_head ordered
    (show 0 ≤ turn.hub + 1 - turn.label.position by omega)
    (show turn.lastCaret + 2 = _ by simp only [lastCaret]; omega)
  have pointed := ruled.glyph .arrow turn.style rfl
  exact pointed.space (Int.natCast_nonneg layout.arrowPadding) (by omega)

theorem holds_plainNext (text : Line) :
    (turn.plainNext layout text).art.Holds
      (turn.lastCaret + 2 + (layout.arrowPadding + 2))
      [(turn.lastCaret + 2, Glyph.vertical.char)] := by
  have filled : (turn.pendingLine.padTo (turn.first + turn.hub + 2)).Holds
      (turn.lastCaret + 2) [] := by
    -- The pending connectors end before the column up to which they are filled.
    refine Line.holds_of_width ((wordless_separator _ _).padTo _) ?_
    have pending := width_pendingLine_le ordered
    rw [Line.width_padTo, lastCaret]
    omega
  have marked := filled.glyph .vertical turn.style rfl
  exact marked.space (Int.natCast_nonneg (layout.arrowPadding + 1)) (by omega)

theorem holds_parentFirst :
    (turn.parentFirst layout).art.Holds
      (turn.lastCaret + 3 + 3 + (layout.arrowPadding + 1))
      [(turn.lastCaret + 3 + 3, (messageMark turn.label.message).char),
        (turn.lastCaret + 3, Glyph.down.char)] := by
  have inside := turn.le_hub List.mem_cons_self
  have allowance : turnAllowance = 2 := rfl
  have length : hubRule = 2 := rfl
  have ruled := holds_head ordered
    (show 0 ≤ turn.hub + turnAllowance - turn.label.position by omega)
    (show turn.lastCaret + 3 = _ by simp only [lastCaret]; omega)
  have hubbed := (ruled.glyph .down turn.style rfl).rule
    (show 0 ≤ hubRule by decide) turn.style
    (show turn.lastCaret + 3 + 3 = _ by omega)
  have pointed := hubbed.glyph (messageMark turn.label.message) turn.style rfl
  exact pointed.space (Int.natCast_nonneg layout.arrowPadding) (by omega)

theorem holds_parentNext (text : Line) :
    (turn.parentNext layout text).art.Holds
      (turn.lastCaret + 3 + 3 + (layout.arrowPadding + 2))
      [(turn.lastCaret + 3 + 3, Glyph.vertical.char),
        (turn.lastCaret + 3, Glyph.vertical.char)] := by
  have length : hubRule = 2 := rfl
  have spaced := (holds_hubLine ordered).space (show 0 ≤ hubRule by decide)
    (show turn.lastCaret + 3 + 3 = _ by omega)
  have marked := spaced.glyph .vertical turn.style rfl
  exact marked.space (Int.natCast_nonneg (layout.arrowPadding + 1)) (by omega)

theorem holds_childFirst (child : PlacedChild) (isLast : Bool) :
    (turn.childFirst layout child isLast).art.Holds
      (turn.lastCaret + 3 + layout.childIndent + 3 + (layout.arrowPadding + 1))
      [(turn.lastCaret + 3 + layout.childIndent + 3,
          (messageMark child.message).char),
        (turn.lastCaret + 3,
          (if isLast then Glyph.upCorner else Glyph.rightTee).char)] := by
  have opened := (holds_childStart ordered).glyph
    (if isLast then Glyph.upCorner else Glyph.rightTee) turn.style rfl
  have ruled := opened.rule (Int.natCast_nonneg (layout.childIndent + 2))
    (turn.childStyle child)
    (show turn.lastCaret + 3 + layout.childIndent + 3 = _ by omega)
  have pointed := ruled.glyph (messageMark child.message)
    (turn.childStyle child) rfl
  exact pointed.space (Int.natCast_nonneg layout.arrowPadding) (by omega)

/-- The hub goes on past a further row of a child, except under the last one. -/
theorem holds_childNext (child : PlacedChild) (isLast : Bool) (text : Line) :
    (turn.childNext layout child isLast text).art.Holds
      (turn.lastCaret + 3 + layout.childIndent + 3 + (layout.arrowPadding + 2))
      [(turn.lastCaret + 3 + layout.childIndent + 3, Glyph.vertical.char),
        (turn.lastCaret + 3,
          if isLast then ' ' else Glyph.vertical.char)] := by
  have start := holds_childStart ordered
  cases isLast with
  | true =>
      -- The run of blanks starts in the hub column.
      have indented := start.blank (show 0 < (layout.childIndent : Int) + 3 by omega)
        (show turn.lastCaret + 3 + layout.childIndent + 3 = _ by omega)
      have marked := indented.glyph .vertical (turn.childStyle child) rfl
      exact marked.space (Int.natCast_nonneg (layout.arrowPadding + 1)) (by omega)
  | false =>
      have indented := (start.glyph .vertical turn.style rfl).space
        (Int.natCast_nonneg (layout.childIndent + 2))
        (show turn.lastCaret + 3 + layout.childIndent + 3 = _ by omega)
      have marked := indented.glyph .vertical (turn.childStyle child) rfl
      exact marked.space (Int.natCast_nonneg (layout.arrowPadding + 1)) (by omega)

theorem shownAt_hubLine :
    shownAt (Row.plain ⟨turn.hubLine, none⟩) (turn.lastCaret + 3) =
      Glyph.vertical.char :=
  Row.shownAt_of_holds (holds_hubLine ordered) List.mem_cons_self

theorem childRows_show (child : PlacedChild) (isLast : Bool) :
    ShowsMessage layout (turn.lastCaret + 3 + layout.childIndent + 3)
      (messageMark child.message) child.message
        ((turn.childRows layout child isLast).map Row.plain) ∧
      RunsDown (turn.lastCaret + 3)
        (if isLast then Glyph.upCorner else Glyph.rightTee).char
        (if isLast then ' ' else Glyph.vertical.char)
        ((turn.childRows layout child isLast).map Row.plain) := by
  have opens := holds_childFirst ordered layout child isLast
  have goes_on := holds_childNext ordered layout child isLast
  constructor
  · exact showsMessage_of_holds opens goes_on rfl (fun _ => rfl) (by simp)
      (by simp)
  · exact runsDown_of_holds opens goes_on (by simp) (by simp)

theorem childrenRows_show {children : List PlacedChild} (nonempty : children ≠ []) :
    ShowsChildren layout (turn.lastCaret + 3) children
      ((turn.childrenRows layout children).map Row.plain) := by
  induction children with
  | nil => exact absurd rfl nonempty
  | cons child rest ih =>
      cases rest with
      | nil =>
          obtain ⟨shows, closes⟩ := childRows_show ordered layout child true
          exact .last shows closes
      | cons next rest =>
          obtain ⟨shows, branches⟩ := childRows_show ordered layout child false
          have goes_on := ih (List.cons_ne_nil next rest)
          rw [childrenRows, List.map_append, List.map_cons]
          exact .before shows branches (shownAt_hubLine ordered) goes_on

/-- The rows of a callout keep its hub and its markers in their columns. -/
theorem rows_show_callout :
    ShowsCallout layout turn.lastCaret turn.label
      ((turn.rows layout).map Row.plain) := by
  unfold rows
  split
  · rename_i children
    have nonempty : turn.label.children ≠ [] := by
      simpa [PlacedLabel.hasChildren] using children
    have opens := holds_parentFirst ordered layout
    have goes_on := holds_parentNext ordered layout
    rw [List.map_append, List.map_cons]
    refine .parent ?_ ?_ (shownAt_hubLine ordered)
      (childrenRows_show ordered layout nonempty)
    · exact showsMessage_of_holds opens goes_on rfl (fun _ => rfl) (by simp)
        (by simp)
    · exact runsDown_of_holds opens goes_on (by simp) (by simp)
  · rename_i childless
    have none : turn.label.children = [] := by
      simpa [PlacedLabel.hasChildren] using childless
    refine .childless none ?_
    exact showsMessage_of_holds (holds_plainFirst ordered layout)
      (holds_plainNext ordered layout) rfl (fun _ => rfl) (by simp) (by simp)

end Turn

/-- The callout of a label starts on its turn row. -/
theorem exists_callouts_eq_append (layout : Layout) (first : Int)
    {labels : List PlacedLabel} {index : Nat} {label : PlacedLabel}
    (found : labels[index]? = some label) :
    ∃ above below, callouts layout first labels =
      above ++ Turn.rows layout ⟨first, label, labels.drop (index + 1)⟩ ++ below ∧
        above.length = turnRow labels index := by
  induction labels generalizing index with
  | nil => cases found
  | cons head rest ih =>
      rw [callouts_cons]
      cases index with
      | zero =>
          rw [List.getElem?_cons_zero, Option.some.injEq] at found
          rw [← found, List.append_assoc]
          exact ⟨[], _, rfl, rfl⟩
      | succ index =>
          rw [List.getElem?_cons_succ] at found
          have nonempty : rest ≠ [] :=
            List.ne_nil_of_mem (List.mem_of_getElem? found)
          obtain ⟨above, below, rest_eq, length⟩ := ih found
          refine ⟨Turn.rows layout ⟨first, head, rest⟩ ++
            [⟨separator first rest, none⟩] ++ above, below, ?_, ?_⟩
          · rw [rest_eq, if_neg nonempty]
            simp
          · rw [List.length_append, List.length_append, Turn.length_rows, length]
            rfl

namespace Segment

/-- The lines of a callout stand together from its turn line on.  Where its hub
and its markers stand depends only on the rightmost caret of its label and those
pending after it. -/
theorem draw_aligns_callouts (segment : Segment) (layout : Layout)
    (nonneg : 0 ≤ segment.first) (index : Nat) (label : PlacedLabel)
    (found : segment.sortedLabels[index]? = some label) :
    ∃ rightmost, ((segment.sortedLabels.drop index).map
        PlacedLabel.position).max? = some rightmost ∧
      ∃ above callout below,
        (segment.draw layout).map Line.plain = above ++ callout ++ below ∧
          above.length = segment.turnLine index ∧
          ShowsCallout layout (segment.first + rightmost) label callout := by
  obtain ⟨limit, stacked⟩ := exists_stacked_sortedLabels nonneg
  obtain ⟨above, below, callouts_eq, length⟩ :=
    exists_callouts_eq_append layout segment.first found
  let turn : Turn :=
    ⟨segment.first, label, segment.sortedLabels.drop (index + 1)⟩
  have split : segment.sortedLabels.drop index = turn.label :: turn.pending := by
    obtain ⟨inside, rfl⟩ := List.getElem?_eq_some_iff.mp found
    exact List.drop_eq_getElem_cons inside
  have ordered : turn.Ordered :=
    ⟨stacked.nonneg label (List.mem_of_getElem? found), by
      rw [← split]
      exact stacked.sorted.sublist (List.drop_sublist _ _)⟩
  refine ⟨turn.hub, by rw [split]; exact turn.max?_positions, ?_⟩
  refine ⟨(⟨underbar segment.first segment.last segment.sortedLabels, none⟩ ::
    ⟨separator segment.first segment.sortedLabels, none⟩ :: above).map Row.plain,
    (turn.rows layout).map Row.plain, below.map Row.plain, ?_, ?_,
    Turn.rows_show_callout ordered layout⟩
  · rw [map_plain_draw, rows, callouts_eq]
    simp [turn]
  · rw [List.length_map, List.length_cons, List.length_cons, length]
    rfl

/-- A segment in which all messages are wrapped: that of a label, those of its
two children, and that of a label pending after it. -/
def wrapped : Segment :=
  let line (text : List Char) : Line := .ofTokens [.text text]
  { first := 1
    last := 5
    ordered := by decide
    labels := [
      { position := 0, offset := 0, length := 5,
        message := ⟨line ['o', 'n', 'e'], [line ['t', 'w', 'o']]⟩,
        children := [
          ⟨⟨line ['a', 'b'], [line ['c']]⟩, none⟩,
          ⟨⟨line ['d'], [line ['e'], line ['f']]⟩, none⟩],
        caretColor := none, highlightColor := none },
      { position := 3, offset := 2, length := 2,
        message := ⟨line ['u', 'p'], [line ['i', 'n']]⟩, children := [],
        caretColor := none, highlightColor := none }]
    carets_inside := by decide }

theorem draw_aligns_callouts_wrapped :
    0 ≤ wrapped.first ∧
      ∃ label, wrapped.sortedLabels[0]? = some label ∧
        ∃ above callout below,
          (wrapped.draw {}).map Line.plain = above ++ callout ++ below ∧
            above.length = wrapped.turnLine 0 ∧
            ShowsCallout {} 4 label callout := by
  have nonneg : 0 ≤ wrapped.first := by decide
  have unmoved : wrapped.sortedLabels = wrapped.labels :=
    List.mergeSort_of_pairwise (by decide)
  have found : wrapped.sortedLabels[0]? = wrapped.labels.head? := by
    rw [unmoved]
    rfl
  obtain ⟨rightmost, max_eq, drawn⟩ :=
    draw_aligns_callouts wrapped {} nonneg 0 _ found
  rw [unmoved] at max_eq
  obtain rfl : 3 = rightmost := Option.some.inj max_eq
  exact ⟨nonneg, _, found, drawn⟩

example : (callouts {} wrapped.first wrapped.labels).map
    (fun row => String.ofList row.plain) = [
    " ╰─────┬──┤ one",
    "    │  │  │  two",
    "    │  │",
    "    │  ├─────┤ ab",
    "    │  │     │  c",
    "    │  │",
    "    │  ╰─────┤ d",
    "    │        │  e",
    "    │        │  f",
    "    │",
    "    ╰─▶ up",
    "      │  in"] := by
  cbv

end Segment

end CaretReport
