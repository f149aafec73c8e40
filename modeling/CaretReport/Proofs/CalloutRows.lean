import CaretReport.Proofs.CaretColumns

/-!
# The rows of a callout

A callout opens with a turn row, on which the label's connector bends to the
right, and goes on with rows on which the pending connectors wait.  This file
describes both kinds of row up to the rightmost caret column, and proves that
every row of a callout is of one of the two kinds and that its glyphs reach
past that column, so that text can only stand to the right of it.
-/

namespace CaretReport

namespace Line

/-- A corner stands in the given column, with blanks to its left and rule from
there to `limit`. -/
structure Turns (column limit : Int) (corner : Glyph) (line : Line) : Prop where
  wordless : line.Wordless
  reaches : limit < line.plain.length
  blank : ∀ left : Int, 0 ≤ left → left < column →
    shownAt line.plain left = ' '
  bent : shownAt line.plain column = corner.char
  ruled : ∀ right : Int, column < right → right ≤ limit →
    shownAt line.plain right = Glyph.rule.char

/-- Up to `limit`, a `│` stands in each of the columns and blanks in all
others. -/
structure Waits (columns : List Int) (limit : Int) (line : Line) : Prop where
  wordless : line.Wordless
  reaches : limit < line.plain.length
  shown : ∀ column : Int, 0 ≤ column → column ≤ limit →
    shownAt line.plain column =
      if column ∈ columns then Glyph.vertical.char else ' '

variable {line longer : Line} {columns : List Int} {column limit : Int}

theorem Continues.reaches (continues : line.Continues longer)
    (reaches : limit < line.plain.length) : limit < longer.plain.length := by
  obtain ⟨more, plain_eq⟩ := continues.plain_eq
  rw [plain_eq, List.length_append]
  omega

theorem Continues.shownAt_eq (continues : line.Continues longer)
    (reaches : limit < line.plain.length) (nonneg : 0 ≤ column)
    (before : column ≤ limit) :
    shownAt longer.plain column = shownAt line.plain column := by
  obtain ⟨more, plain_eq⟩ := continues.plain_eq
  rw [plain_eq]
  exact shownAt_append_left (by omega)

/-- More glyphs past the limit keep a turn. -/
theorem Turns.continues {corner : Glyph} (turns : line.Turns column limit corner)
    (continues : line.Continues longer) (nonneg : 0 ≤ column)
    (before : column ≤ limit) : longer.Turns column limit corner where
  wordless := continues.wordless
  reaches := continues.reaches turns.reaches
  blank left left_nonneg left_before := by
    rw [continues.shownAt_eq turns.reaches left_nonneg (by omega)]
    exact turns.blank left left_nonneg left_before
  bent := by
    rw [continues.shownAt_eq turns.reaches nonneg before]
    exact turns.bent
  ruled right after inside := by
    rw [continues.shownAt_eq turns.reaches (by omega) inside]
    exact turns.ruled right after inside

/-- More glyphs past the limit keep the connectors. -/
theorem Waits.continues (waits : line.Waits columns limit)
    (continues : line.Continues longer) : longer.Waits columns limit where
  wordless := continues.wordless
  reaches := continues.reaches waits.reaches
  shown place nonneg inside := by
    rw [continues.shownAt_eq waits.reaches nonneg inside]
    exact waits.shown place nonneg inside

/-- A line of blanks, a corner, and rule up to the limit. -/
theorem turns_of_plain {corner : Glyph} {width : Nat} (wordless : line.Wordless)
    (plain_eq : line.plain = List.replicate column.toNat ' ' ++ [corner.char] ++
      List.replicate width Glyph.rule.char) (nonneg : 0 ≤ column)
    (wide : limit - column ≤ width) :
    line.Turns column limit corner := by
  have blank_length :
      ((List.replicate column.toNat ' ').length : Int) = column := by
    rw [List.length_replicate]
    omega
  have bent_length : ((List.replicate column.toNat ' ' ++
      [corner.char]).length : Int) = column + 1 := by
    rw [List.length_append, List.length_singleton]
    omega
  constructor
  · exact wordless
  · rw [plain_eq, List.length_append, List.length_replicate]
    omega
  · intro left left_nonneg before
    rw [plain_eq, shownAt_append_left (by omega),
      shownAt_append_left (by omega), shownAt_blanks]
  · rw [plain_eq, shownAt_append_left (by omega),
      shownAt_append_right (by omega), blank_length, Int.sub_self]
    rfl
  · intro right after before
    rw [plain_eq, shownAt_append_right (by omega),
      shownAt_replicate (by omega)]

/-- A line with connectors, filled up to a column past the limit. -/
theorem waits_padTo (wordless : line.Wordless)
    (connects : Connects columns line.plain) (past : limit < column) :
    (line.padTo column).Waits columns limit := by
  have padded := (wordless.shows.padTo column).plain_eq
  constructor
  · exact wordless.padTo column
  · rw [padded, List.length_append, List.length_replicate]
    omega
  · intro place nonneg _
    rw [padded, shownAt_append_blanks nonneg]
    exact connects.shown place nonneg

/-- A line with connectors of which the last stands in the limit. -/
theorem waits_of_connects (wordless : line.Wordless)
    (connects : Connects columns line.plain) (last : limit ∈ columns) :
    line.Waits columns limit where
  wordless := wordless
  reaches := connects.reaches limit last
  shown place nonneg _ := connects.shown place nonneg

end Line

theorem wordless_separator (first : Int) (labels : List PlacedLabel) :
    (separator first labels).Wordless :=
  List.foldlRecOn _ _ .empty fun _ wordless _ _ =>
    (wordless.padTo _).glyph _ _

theorem connects_separator {first : Int} {labels : List PlacedLabel}
    (sorted : labels.Pairwise fun label other =>
      label.position ≤ other.position)
    (nonneg : ∀ label ∈ labels, 0 ≤ first + label.position) :
    Connects (caretColumns first labels) (separator first labels).plain := by
  obtain ⟨text, shows, connects⟩ := separator_shows sorted nonneg
  rw [shows.plain_eq]
  exact connects

namespace PlacedLabel

/-- The lines of text of the label: its message, then those of its children. -/
def texts (label : PlacedLabel) : List Line :=
  label.message.lines ++
    label.children.flatMap fun child => child.message.lines

/-- The number of rows of the label's callout: one for each line of text, and
one above each child. -/
def height (label : PlacedLabel) : Nat :=
  label.children.foldr
    (fun child height => child.message.lines.length + 1 + height)
    label.message.lines.length

end PlacedLabel

namespace Turn

variable {turn : Turn}

/-- The rows of which a callout is made. -/
inductive IsRow (layout : Layout) (turn : Turn) : Row → Prop where
  | plainFirst : IsRow layout turn (turn.plainFirst layout)
  | plainNext (text : Line) : IsRow layout turn (turn.plainNext layout text)
  | parentFirst : IsRow layout turn (turn.parentFirst layout)
  | parentNext (text : Line) : IsRow layout turn (turn.parentNext layout text)
  | hub : IsRow layout turn ⟨turn.hubLine, none⟩
  | childFirst (child : PlacedChild) (isLast : Bool) :
      IsRow layout turn (turn.childFirst layout child isLast)
  | childNext (child : PlacedChild) (isLast : Bool) (text : Line) :
      IsRow layout turn (turn.childNext layout child isLast text)

theorem isRow_of_mem_childRows {layout : Layout} {child : PlacedChild}
    {isLast : Bool} {row : Row}
    (member : row ∈ turn.childRows layout child isLast) :
    turn.IsRow layout row := by
  rcases List.mem_cons.mp member with rfl | later
  · exact .childFirst child isLast
  · obtain ⟨text, _, rfl⟩ := List.mem_map.mp later
    exact .childNext child isLast text

theorem isRow_of_mem_childrenRows {layout : Layout}
    {children : List PlacedChild} {row : Row}
    (member : row ∈ turn.childrenRows layout children) :
    turn.IsRow layout row := by
  induction children with
  | nil => cases member
  | cons child rest ih =>
      cases rest with
      | nil => exact isRow_of_mem_childRows member
      | cons next rest =>
          rw [childrenRows, List.mem_append, List.mem_cons] at member
          rcases member with here | rfl | later
          · exact isRow_of_mem_childRows here
          · exact .hub
          · exact ih later

theorem isRow_of_mem_rows {layout : Layout} {row : Row}
    (member : row ∈ turn.rows layout) : turn.IsRow layout row := by
  unfold rows at member
  split at member
  · rcases List.mem_append.mp member with message | further
    · rcases List.mem_cons.mp message with rfl | next
      · exact .parentFirst
      · obtain ⟨text, _, rfl⟩ := List.mem_map.mp next
        exact .parentNext text
    · rcases List.mem_cons.mp further with rfl | children
      · exact .hub
      · exact isRow_of_mem_childrenRows children
  · rcases List.mem_cons.mp member with rfl | next
    · exact .plainFirst
    · obtain ⟨text, _, rfl⟩ := List.mem_map.mp next
      exact .plainNext text

theorem wordless_head (turn : Turn) (width : Int) :
    (turn.head width).Wordless :=
  ((Line.Wordless.empty.space _).glyph _ _).rule _ _

theorem wordless_hubLine (turn : Turn) : turn.hubLine.Wordless :=
  ((wordless_separator _ _).padTo _).glyph _ _

theorem wordless_childStart (turn : Turn) : turn.childStart.Wordless :=
  (wordless_separator _ _).padTo _

/-- The glyphs of a row of a callout hold no text, wherever its carets are. -/
theorem IsRow.wordless {layout : Layout} {row : Row}
    (isRow : turn.IsRow layout row) : row.art.Wordless := by
  cases isRow with
  | plainFirst => exact ((turn.wordless_head _).glyph _ _).space _
  | plainNext text =>
      have filled := (wordless_separator turn.first turn.pending).padTo
        (turn.first + turn.hub + turnAllowance)
      exact (filled.glyph .vertical turn.style).space (layout.arrowPadding + 1)
  | parentFirst =>
      exact ((((turn.wordless_head _).glyph _ _).rule _ _).glyph _ _).space _
  | parentNext text =>
      have marked := (turn.wordless_hubLine.space hubRule).glyph .vertical
        turn.style
      exact marked.space (layout.arrowPadding + 1)
  | hub => exact turn.wordless_hubLine
  | childFirst child isLast =>
      exact (((turn.wordless_childStart.glyph _ _).rule _ _).glyph _ _).space _
  | childNext child isLast text =>
      have start := turn.wordless_childStart
      cases isLast with
      | true =>
          have indented := start.space (layout.childIndent + 3)
          exact (indented.glyph .vertical (turn.childStyle child)).space
            (layout.arrowPadding + 1)
      | false =>
          have indented := (start.glyph .vertical turn.style).space
            (layout.childIndent + 2)
          exact (indented.glyph .vertical (turn.childStyle child)).space
            (layout.arrowPadding + 1)

theorem max?_positions (turn : Turn) :
    ((turn.label :: turn.pending).map PlacedLabel.position).max? =
      some turn.hub := by
  rw [List.map_cons, List.max?_cons']
  rfl

theorem le_hub (turn : Turn) {other : PlacedLabel}
    (member : other ∈ turn.label :: turn.pending) :
    other.position ≤ turn.hub :=
  (List.max?_eq_some_iff.mp turn.max?_positions).2 _ (List.mem_map_of_mem member)

theorem exists_position_eq_hub (turn : Turn) :
    ∃ other ∈ turn.label :: turn.pending, other.position = turn.hub :=
  List.mem_map.mp (List.max?_eq_some_iff.mp turn.max?_positions).1

/-- The glyph with which the label's connector bends. -/
def corner (turn : Turn) : Glyph :=
  if turn.sharesPosition then .rightTee else .upCorner

/-- The labels of the turn stand in the order of their carets, right of the
margin. -/
structure Ordered (turn : Turn) : Prop where
  nonneg : 0 ≤ turn.first + turn.label.position
  sorted : (turn.label :: turn.pending).Pairwise fun label other =>
    label.position ≤ other.position

section Rows

variable (ordered : turn.Ordered)

include ordered

theorem pending_nonneg :
    ∀ label ∈ turn.pending, 0 ≤ turn.first + label.position := by
  intro label member
  have nonneg := ordered.nonneg
  have after := (List.pairwise_cons.mp ordered.sorted).1 label member
  omega

/-- The head of a turn row bends in the label's column, and its rule reaches
the rightmost caret column. -/
theorem head_turns {width : Int}
    (wide : turn.hub - turn.label.position ≤ width) :
    (turn.head width).Turns (turn.first + turn.label.position)
      (turn.first + turn.hub) turn.corner := by
  have nonneg := ordered.nonneg
  have blanks := Line.shows_empty.space (turn.first + turn.label.position)
  have bent := blanks.glyph turn.corner turn.style
  apply Line.turns_of_plain
  · exact turn.wordless_head width
  · exact (bent.rule width turn.style).plain_eq
  · exact nonneg
  · omega

theorem head_continues {width : Int}
    (wide : turn.hub - turn.label.position ≤ width) {line : Line}
    (continues : (turn.head width).Continues line) :
    line.Turns (turn.first + turn.label.position) (turn.first + turn.hub)
      turn.corner := by
  have inside : turn.label.position ≤ turn.hub :=
    turn.le_hub List.mem_cons_self
  exact (head_turns ordered wide).continues continues ordered.nonneg (by omega)

/-- The pending connectors, filled up to a column past all of them. -/
theorem pendingLine_waits {column : Int} (past : turn.first + turn.hub < column) :
    (turn.pendingLine.padTo column).Waits
      (caretColumns turn.first turn.pending) (turn.first + turn.hub) :=
  Line.waits_padTo (wordless_separator _ _)
    (connects_separator (List.pairwise_cons.mp ordered.sorted).2
      (pending_nonneg ordered)) past

theorem hubLine_waits :
    turn.hubLine.Waits (caretColumns turn.first turn.pending)
      (turn.first + turn.hub) := by
  have waits := pendingLine_waits ordered
    (show turn.first + turn.hub < turn.first + turn.hub + hubOffset by
      simp only [hubOffset]; omega)
  exact waits.continues ((Line.continues_refl waits.wordless).glyph _ _)

theorem plainFirst_turns (layout : Layout) :
    (turn.plainFirst layout).art.Turns (turn.first + turn.label.position)
      (turn.first + turn.hub) turn.corner := by
  have wide : turn.hub - turn.label.position ≤
      turn.hub + 1 - turn.label.position := by omega
  have head := head_turns ordered wide
  exact head_continues ordered wide
    (((Line.continues_refl head.wordless).glyph _ _).space _)

theorem parentFirst_turns (layout : Layout) :
    (turn.parentFirst layout).art.Turns (turn.first + turn.label.position)
      (turn.first + turn.hub) turn.corner := by
  have wide : turn.hub - turn.label.position ≤
      turn.hub + turnAllowance - turn.label.position := by
    simp only [turnAllowance]
    omega
  have head := head_turns ordered wide
  exact head_continues ordered wide
    (((((Line.continues_refl head.wordless).glyph _ _).rule _ _).glyph _
      _).space _)

theorem plainNext_waits (layout : Layout) (text : Line) :
    (turn.plainNext layout text).art.Waits
      (caretColumns turn.first turn.pending) (turn.first + turn.hub) := by
  have waits := pendingLine_waits ordered
    (show turn.first + turn.hub < turn.first + turn.hub + turnAllowance by
      simp only [turnAllowance]; omega)
  have start := Line.continues_refl waits.wordless
  apply waits.continues
  exact (start.glyph .vertical turn.style).space (layout.arrowPadding + 1)

theorem parentNext_waits (layout : Layout) (text : Line) :
    (turn.parentNext layout text).art.Waits
      (caretColumns turn.first turn.pending) (turn.first + turn.hub) := by
  have waits := hubLine_waits ordered
  have start := Line.continues_refl waits.wordless
  apply waits.continues
  have marked := (start.space hubRule).glyph .vertical turn.style
  exact marked.space (layout.arrowPadding + 1)

theorem childStart_waits :
    turn.childStart.Waits (caretColumns turn.first turn.pending)
      (turn.first + turn.hub) :=
  pendingLine_waits ordered (by simp only [hubOffset]; omega)

theorem childFirst_waits (layout : Layout) (child : PlacedChild)
    (isLast : Bool) :
    (turn.childFirst layout child isLast).art.Waits
      (caretColumns turn.first turn.pending) (turn.first + turn.hub) := by
  have waits := childStart_waits ordered
  exact waits.continues
    (((((Line.continues_refl waits.wordless).glyph _ _).rule _ _).glyph _
      _).space _)

theorem childNext_waits (layout : Layout) (child : PlacedChild)
    (isLast : Bool) (text : Line) :
    (turn.childNext layout child isLast text).art.Waits
      (caretColumns turn.first turn.pending) (turn.first + turn.hub) := by
  have waits := childStart_waits ordered
  have start := Line.continues_refl waits.wordless
  apply waits.continues
  cases isLast with
  | true =>
      have indented := start.space (layout.childIndent + 3)
      exact (indented.glyph .vertical (turn.childStyle child)).space
        (layout.arrowPadding + 1)
  | false =>
      have indented := (start.glyph .vertical turn.style).space
        (layout.childIndent + 2)
      exact (indented.glyph .vertical (turn.childStyle child)).space
        (layout.arrowPadding + 1)

theorem childRows_wait (layout : Layout) (child : PlacedChild)
    (isLast : Bool) :
    ∀ row ∈ turn.childRows layout child isLast, row.art.Waits
      (caretColumns turn.first turn.pending) (turn.first + turn.hub) := by
  intro row member
  rcases List.mem_cons.mp member with rfl | later
  · exact childFirst_waits ordered layout child isLast
  · obtain ⟨text, _, rfl⟩ := List.mem_map.mp later
    exact childNext_waits ordered layout child isLast text

theorem childrenRows_wait (layout : Layout) (children : List PlacedChild) :
    ∀ row ∈ turn.childrenRows layout children, row.art.Waits
      (caretColumns turn.first turn.pending) (turn.first + turn.hub) := by
  induction children with
  | nil => simp [childrenRows]
  | cons child rest ih =>
      cases rest with
      | nil => exact childRows_wait ordered layout child true
      | cons next rest =>
          intro row member
          rw [childrenRows, List.mem_append, List.mem_cons] at member
          rcases member with here | rfl | later
          · exact childRows_wait ordered layout child false row here
          · exact hubLine_waits ordered
          · exact ih row later

/-- A callout opens with its turn row, beside the first line of its message,
and on all further rows the pending connectors wait. -/
theorem exists_rows_eq (layout : Layout) :
    ∃ opening waiting, turn.rows layout = opening :: waiting ∧
      opening.text = some turn.label.message.first ∧
      opening.art.Turns (turn.first + turn.label.position)
        (turn.first + turn.hub) turn.corner ∧
      ∀ row ∈ waiting, row.art.Waits (caretColumns turn.first turn.pending)
        (turn.first + turn.hub) := by
  unfold rows
  split
  · refine ⟨_, _, rfl, rfl, parentFirst_turns ordered layout, ?_⟩
    intro row member
    rcases List.mem_append.mp member with message | further
    · obtain ⟨text, _, rfl⟩ := List.mem_map.mp message
      exact parentNext_waits ordered layout text
    · rcases List.mem_cons.mp further with rfl | children
      · exact hubLine_waits ordered
      · exact childrenRows_wait ordered layout _ row children
  · refine ⟨_, _, rfl, rfl, plainFirst_turns ordered layout, ?_⟩
    intro row member
    obtain ⟨text, _, rfl⟩ := List.mem_map.mp member
    exact plainNext_waits ordered layout text

end Rows

theorem filterMap_text_childRows (layout : Layout) (child : PlacedChild)
    (isLast : Bool) :
    (turn.childRows layout child isLast).filterMap Row.text =
      child.message.lines := by
  simp [childRows, childFirst, childNext, Message.lines, List.filterMap_map,
    Function.comp_def]

theorem filterMap_text_childrenRows (layout : Layout)
    (children : List PlacedChild) :
    (turn.childrenRows layout children).filterMap Row.text =
      children.flatMap fun child => child.message.lines := by
  induction children with
  | nil => rfl
  | cons child rest ih =>
      cases rest with
      | nil => simp [childrenRows, filterMap_text_childRows]
      | cons next rest =>
          rw [childrenRows, List.filterMap_append, filterMap_text_childRows,
            List.filterMap_cons, ih]
          rfl

/-- A callout shows the lines of its message and of its children, in order. -/
theorem filterMap_text_rows (layout : Layout) (turn : Turn) :
    (turn.rows layout).filterMap Row.text = turn.label.texts := by
  unfold rows PlacedLabel.texts
  split
  · simp [parentRows, parentFirst, parentNext, filterMap_text_childrenRows,
      Message.lines, List.filterMap_map, Function.comp_def]
  · rename_i childless
    have none : turn.label.children = [] := by
      simpa [PlacedLabel.hasChildren] using childless
    simp [plainRows, plainFirst, plainNext, none, Message.lines,
      List.filterMap_map, Function.comp_def]

theorem length_childRows (layout : Layout) (child : PlacedChild)
    (isLast : Bool) :
    (turn.childRows layout child isLast).length =
      child.message.lines.length := by
  simp [childRows, Message.lines]

theorem length_childrenRows (layout : Layout) (turn : Turn)
    {children : List PlacedChild} (nonempty : children ≠ []) (above : Nat) :
    (turn.childrenRows layout children).length + 1 + above =
      children.foldr
        (fun child height => child.message.lines.length + 1 + height)
        above := by
  induction children with
  | nil => exact absurd rfl nonempty
  | cons child rest ih =>
      cases rest with
      | nil => simp [childrenRows, length_childRows]
      | cons next rest =>
          have rest_length := ih (List.cons_ne_nil next rest)
          rw [List.foldr_cons, ← rest_length, childrenRows,
            List.length_append, List.length_cons, length_childRows]
          omega

theorem length_rows (layout : Layout) (turn : Turn) :
    (turn.rows layout).length = turn.label.height := by
  unfold rows PlacedLabel.height
  split
  · rename_i children
    have some : turn.label.children ≠ [] := by
      simpa [PlacedLabel.hasChildren] using children
    have message : (turn.parentRows layout).length =
        turn.label.message.lines.length := by
      simp [parentRows, Message.lines]
    have below := length_childrenRows layout turn some
      turn.label.message.lines.length
    rw [← below, List.length_append, List.length_cons, message]
    omega
  · rename_i childless
    have none : turn.label.children = [] := by
      simpa [PlacedLabel.hasChildren] using childless
    simp [plainRows, Message.lines, none]

end Turn

end CaretReport
