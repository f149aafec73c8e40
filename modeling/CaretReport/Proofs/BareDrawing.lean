import CaretReport.Proofs.RunWidths

/-!
# Drawings without colour

The colour of a label decides in which style its glyphs are drawn, and so which
of them can be joined to their neighbours.  But a coloured run is only ever drawn
where the same run without colour would stand alone as well.  So a drawing that
is laid bare, by dropping the styles of its glyphs, is the drawing of the labels
without their colours.
-/

namespace CaretReport

namespace Token

/-- The token without the styles around it. -/
def bare : Token → Token
  | .styled _ inner => inner.bare
  | token => token

theorem plain_bare (token : Token) : token.bare.plain = token.plain := by
  induction token with
  | styled styles inner ih => exact ih
  | _ => rfl

theorem width_bare (token : Token) : token.bare.width = token.width := by
  induction token with
  | styled styles inner ih => exact ih
  | _ => rfl

theorem check_bare (token : Token) : token.bare.check = token.check := by
  induction token with
  | styled styles inner ih => exact ih
  | _ => rfl

/-- Nothing is joined to a glyph, in a style or without one. -/
theorem join?_of_bare_eq_glyph {last : Token} {shape : Glyph}
    (glyph : last.bare = .glyph shape) (token : Token) :
    last.join? token = none := by
  cases last with
  | glyph _ => cases token <;> rfl
  | styled _ _ => cases token <;> rfl
  | _ => cases glyph

end Token

/-- Tokens that are laid bare after a push are those that are pushed bare, if
the last of them is joined alike. -/
theorem map_bare_pushToken {tokens : List Token} {token : Token}
    (alike : ∀ last ∈ tokens.getLast?,
      (last.join? token).map Token.bare = last.bare.join? token.bare) :
    (pushToken tokens token).map Token.bare =
      pushToken (tokens.map Token.bare) token.bare := by
  fun_induction pushToken tokens token with
  | case1 token => rfl
  | case2 last token joined join =>
      have bare_join := alike last rfl
      rw [join, Option.map_some] at bare_join
      simp [pushToken, ← bare_join]
  | case3 last token join =>
      have bare_join := alike last rfl
      rw [join, Option.map_none] at bare_join
      simp [pushToken, ← bare_join]
  | case4 first second rest token ih =>
      rw [List.map_cons, ih alike]
      rfl

theorem getLast?_pushToken (tokens : List Token) (token : Token) :
    ∃ last, (pushToken tokens token).getLast? = some last ∧
      (last = token ∨ ∃ before ∈ tokens.getLast?,
        before.join? token = some last) := by
  fun_induction pushToken tokens token with
  | case1 token => exact ⟨token, rfl, Or.inl rfl⟩
  | case2 last token joined join => exact ⟨joined, rfl, Or.inr ⟨last, rfl, join⟩⟩
  | case3 last token join => exact ⟨token, rfl, Or.inl rfl⟩
  | case4 first second rest token ih =>
      obtain ⟨last, found, source⟩ := ih
      have nonempty : pushToken (second :: rest) token ≠ [] := by
        intro nothing
        rw [nothing] at found
        cases found
      refine ⟨last, ?_, source⟩
      rw [List.getLast?_cons_of_ne_nil nonempty]
      exact found

namespace Line

/-- The line without the styles of its tokens. -/
def bare (line : Line) : Line :=
  ⟨line.tokens.map Token.bare⟩

theorem plain_bare (line : Line) : line.bare.plain = line.plain := by
  simp only [plain, bare, List.flatMap_map, Token.plain_bare]

theorem width_bare (line : Line) : line.bare.width = line.width := by
  simp only [width, bare, List.foldr_map, Token.width_bare]

theorem check_bare (line : Line) : line.bare.check = line.check := by
  apply forM_eq_of_forall₂
  rw [bare, List.forall₂_map_left_iff, List.forall₂_same]
  exact fun token _ => token.check_bare

/-- The line is empty or ends in blanks or a glyph, so that a rule that is drawn
next stands alone, in whatever colour. -/
def Open (line : Line) : Prop :=
  ∀ last ∈ line.tokens.getLast?,
    (∃ width, last = .space width) ∨ ∃ shape, last.bare = .glyph shape

theorem open_empty : Open empty := by
  intro last member
  cases member

theorem bare_push {line : Line} {token : Token}
    (void : token.bare.isVoid = token.isVoid)
    (alike : ∀ last ∈ line.tokens.getLast?,
      (last.join? token).map Token.bare = last.bare.join? token.bare) :
    (line.push token).bare = line.bare.push token.bare := by
  rw [push, push, void]
  split
  · rfl
  · exact congrArg Line.mk (map_bare_pushToken alike)

theorem bare_inStyle (style : Option Style) (token : Token) :
    (inStyle style token).bare = token.bare := by
  cases style <;> rfl

section Drawing

variable (line : Line) (shape : Glyph) (style : Option Style)

/-- No glyph is joined to what stands before it. -/
theorem join?_inStyle_glyph (last : Token) :
    last.join? (inStyle style (.glyph shape)) = none := by
  cases style <;> cases last <;> rfl

theorem bare_glyph :
    (line.glyph shape style).bare = line.bare.glyph shape none := by
  have alone (last : Token) : last.join? (.glyph shape) = none :=
    join?_inStyle_glyph shape none last
  rw [glyph, bare_push, bare_inStyle]
  · rfl
  · cases style <;> rfl
  · intro last _
    rw [join?_inStyle_glyph, bare_inStyle]
    exact (alone last.bare).symm

theorem open_glyph : (line.glyph shape style).Open := by
  intro last member
  rw [glyph, push_of_solid (solid_inStyle_glyph shape style)] at member
  obtain ⟨added, found, source⟩ :=
    getLast?_pushToken line.tokens (inStyle style (.glyph shape))
  obtain rfl : added = last := Option.some.inj (found.symm.trans member)
  rcases source with rfl | ⟨before, _, join⟩
  · exact Or.inr ⟨shape, bare_inStyle _ _⟩
  · rw [join?_inStyle_glyph] at join
    cases join

end Drawing

section Opened

variable {line : Line} (opened : line.Open)

include opened

theorem Open.bare_space (width : Int) :
    (line.space width).bare = line.bare.space width := by
  apply bare_push rfl
  intro last member
  rcases opened last member with ⟨before, rfl⟩ | ⟨shape, glyph⟩
  · rfl
  · rw [Token.join?_of_bare_eq_glyph glyph, glyph]
    rfl

theorem Open.bare_padTo (column : Int) :
    (line.padTo column).bare = line.bare.padTo column := by
  rw [padTo, padTo, width_bare]
  exact opened.bare_space _

theorem Open.bare_rule (width : Int) (style : Option Style) :
    (line.rule width style).bare = line.bare.rule width none := by
  unfold rule
  split
  · rfl
  · rename_i positive
    rw [Int.not_le] at positive
    rw [bare_push, bare_inStyle]
    · rfl
    · rw [solid_inStyle_rule positive, bare_inStyle]
      exact Token.solid_rule_iff.mpr positive
    · intro last member
      rcases opened last member with ⟨before, rfl⟩ | ⟨shape, glyph⟩
      · cases style <;> rfl
      · rw [Token.join?_of_bare_eq_glyph glyph, glyph, bare_inStyle]
        rfl

theorem Open.space (width : Int) : (line.space width).Open := by
  unfold Line.space Line.push
  split
  · exact opened
  · intro last member
    obtain ⟨added, found, source⟩ :=
      getLast?_pushToken line.tokens (.space width)
    obtain rfl : added = last := Option.some.inj (found.symm.trans member)
    rcases source with rfl | ⟨before, _, join⟩
    · exact Or.inl ⟨width, rfl⟩
    · obtain ⟨first, second, _, _, rfl⟩ | ⟨_, _, _, nothing, _⟩ |
        ⟨_, _, _, nothing, _⟩ | ⟨_, nothing, _⟩ := Token.cases_of_join? join
      · exact Or.inl ⟨first + second, rfl⟩
      all_goals cases nothing

theorem Open.padTo (column : Int) : (line.padTo column).Open :=
  opened.space _

end Opened

end Line

/-- The row without the styles of its glyphs. -/
def Row.bare (row : Row) : Row :=
  ⟨row.art.bare, row.text⟩

theorem Row.plain_bare (row : Row) : row.bare.plain = row.plain := by
  rw [plain, plain]
  exact congrArg (· ++ _) row.art.plain_bare

/-- The child without its colour. -/
def PlacedChild.bare (child : PlacedChild) : PlacedChild :=
  { child with caretColor := none }

/-- The label without its colours and those of its children. -/
def PlacedLabel.bare (label : PlacedLabel) : PlacedLabel :=
  { label with
    children := label.children.map PlacedChild.bare
    caretColor := none
    highlightColor := none }

/-- The segment with its labels laid bare. -/
def Segment.bare (segment : Segment) : Segment :=
  { segment with
    labels := segment.labels.map PlacedLabel.bare
    carets_inside := by
      intro label member
      obtain ⟨source, found, rfl⟩ := List.mem_map.mp member
      exact segment.carets_inside source found }

theorem firstLabels_map_bare (labels : List PlacedLabel) :
    firstLabels (labels.map PlacedLabel.bare) =
      (firstLabels labels).map PlacedLabel.bare := by
  match labels with
  | [] => rfl
  | label :: rest =>
      rw [List.map_cons, firstLabels_cons, firstLabels_cons, List.filter_map,
        firstLabels_map_bare, List.map_cons]
      rfl
termination_by labels.length
decreasing_by exact Nat.lt_succ_of_le (List.length_filter_le _ _)

/-- Without their colours, labels have their carets in the same columns. -/
theorem connectors_map_bare (labels : List PlacedLabel) :
    connectors (labels.map PlacedLabel.bare) =
      (connectors labels).map fun caret => (caret.1, none) := by
  have carets (labels : List PlacedLabel) : connectors labels =
      (firstLabels labels).map fun label => (label.position, label.caretColor) :=
    rfl
  rw [carets, carets, firstLabels_map_bare, List.map_map, List.map_map]
  rfl

/-- The line with a `│` at one more caret. -/
def connect (first : Int) (line : Line) (caret : Int × Option Rgb) : Line :=
  (line.padTo (first + caret.1)).glyph .vertical (glyphStyle caret.2)

theorem separator_eq_foldl (first : Int) (labels : List PlacedLabel) :
    separator first labels =
      (connectors labels).foldl (connect first) Line.empty :=
  rfl

theorem bare_separator (first : Int) (labels : List PlacedLabel) :
    (separator first labels).Open ∧
      (separator first labels).bare =
        separator first (labels.map PlacedLabel.bare) := by
  have continued (carets : List (Int × Option Rgb)) :
      ∀ line : Line, line.Open →
        (carets.foldl (connect first) line).Open ∧
        (carets.foldl (connect first) line).bare =
          (carets.map fun caret => (caret.1, none)).foldl (connect first)
            line.bare := by
    induction carets with
    | nil => exact fun line opened => ⟨opened, rfl⟩
    | cons caret rest ih =>
        intro line opened
        have drawn := ih (connect first line caret) (Line.open_glyph _ _ _)
        rw [connect, Line.bare_glyph, opened.bare_padTo] at drawn
        exact drawn
  rw [separator_eq_foldl, separator_eq_foldl, connectors_map_bare]
  exact continued (connectors labels) Line.empty Line.open_empty

theorem bare_underbar (first last : Int) (labels : List PlacedLabel) :
    (underbar first last labels).bare =
      underbar first last (labels.map PlacedLabel.bare) := by
  have continued (width : Int) (carets : List (Int × Option Rgb)) :
      ∀ (line : Line) (previous : Int) (color : Option Rgb), line.Open →
        (underbarFrom width line previous color carets).bare =
          underbarFrom width line.bare previous none
            (carets.map fun caret => (caret.1, none)) := by
    induction carets with
    | nil => exact fun line previous color opened => opened.bare_rule _ _
    | cons caret rest ih =>
        intro line previous color opened
        have drawn := ih ((line.rule (caret.1 - previous - 1)
          (glyphStyle caret.2)).glyph .down (glyphStyle caret.2)) caret.1 caret.2
          (Line.open_glyph _ _ _)
        rw [Line.bare_glyph, opened.bare_rule] at drawn
        exact drawn
  have margin := Line.open_empty.space first
  have drawn := continued (last - first) (connectors labels)
    (Line.empty.space first) (-1) none margin
  rw [Line.open_empty.bare_space, ← connectors_map_bare] at drawn
  exact drawn

namespace Turn

/-- The turn with its labels laid bare. -/
def bare (turn : Turn) : Turn :=
  ⟨turn.first, turn.label.bare, turn.pending.map PlacedLabel.bare⟩

variable (turn : Turn)

theorem hub_bare : turn.bare.hub = turn.hub := by
  rw [hub, hub, bare, List.map_map]
  rfl

theorem sharesPosition_bare : turn.bare.sharesPosition = turn.sharesPosition := by
  rw [sharesPosition, sharesPosition, bare, List.any_map]
  rfl

theorem open_pendingLine : turn.pendingLine.Open :=
  (bare_separator turn.first turn.pending).1

theorem bare_pendingLine : turn.pendingLine.bare = turn.bare.pendingLine :=
  (bare_separator turn.first turn.pending).2

theorem bare_head (width : Int) : (turn.head width).bare = turn.bare.head width := by
  rw [head, (Line.open_glyph _ _ _).bare_rule, Line.bare_glyph,
    Line.open_empty.bare_space, head, sharesPosition_bare]
  rfl

theorem bare_hubLine : turn.hubLine.bare = turn.bare.hubLine := by
  rw [hubLine, Line.bare_glyph, turn.open_pendingLine.bare_padTo,
    bare_pendingLine, hubLine, hub_bare]
  rfl

theorem open_childStart : turn.childStart.Open :=
  turn.open_pendingLine.padTo _

theorem bare_childStart : turn.childStart.bare = turn.bare.childStart := by
  rw [childStart, turn.open_pendingLine.bare_padTo, bare_pendingLine, childStart,
    hub_bare]
  rfl

variable (layout : Layout)

theorem bare_plainFirst :
    (turn.plainFirst layout).bare = turn.bare.plainFirst layout := by
  rw [plainFirst, plainFirst, Row.bare, (Line.open_glyph _ _ _).bare_space,
    Line.bare_glyph, bare_head, hub_bare]
  rfl

theorem bare_plainNext (text : Line) :
    (turn.plainNext layout text).bare = turn.bare.plainNext layout text := by
  rw [plainNext, plainNext, Row.bare, (Line.open_glyph _ _ _).bare_space,
    Line.bare_glyph, turn.open_pendingLine.bare_padTo, bare_pendingLine, hub_bare]
  rfl

theorem bare_parentFirst :
    (turn.parentFirst layout).bare = turn.bare.parentFirst layout := by
  rw [parentFirst, parentFirst, Row.bare, (Line.open_glyph _ _ _).bare_space,
    Line.bare_glyph, (Line.open_glyph _ _ _).bare_rule, Line.bare_glyph,
    bare_head, hub_bare]
  rfl

theorem bare_parentNext (text : Line) :
    (turn.parentNext layout text).bare = turn.bare.parentNext layout text := by
  have hub : turn.hubLine.Open := Line.open_glyph _ _ _
  rw [parentNext, parentNext, Row.bare, (Line.open_glyph _ _ _).bare_space,
    Line.bare_glyph, hub.bare_space, bare_hubLine]
  rfl

theorem bare_childFirst (child : PlacedChild) (isLast : Bool) :
    (turn.childFirst layout child isLast).bare =
      turn.bare.childFirst layout child.bare isLast := by
  rw [childFirst, childFirst, Row.bare, (Line.open_glyph _ _ _).bare_space,
    Line.bare_glyph, (Line.open_glyph _ _ _).bare_rule, Line.bare_glyph,
    bare_childStart]
  rfl

theorem bare_childNext (child : PlacedChild) (isLast : Bool) (text : Line) :
    (turn.childNext layout child isLast text).bare =
      turn.bare.childNext layout child.bare isLast text := by
  rw [childNext, childNext, Row.bare, (Line.open_glyph _ _ _).bare_space,
    Line.bare_glyph]
  cases isLast with
  | true =>
      rw [if_pos rfl, turn.open_childStart.bare_space, bare_childStart]
      rfl
  | false =>
      rw [if_neg Bool.false_ne_true, (Line.open_glyph _ _ _).bare_space,
        Line.bare_glyph, bare_childStart]
      rfl

theorem bare_hubRow : Row.bare ⟨turn.hubLine, none⟩ = ⟨turn.bare.hubLine, none⟩ := by
  rw [Row.bare, bare_hubLine]

theorem map_bare_childRows (child : PlacedChild) (isLast : Bool) :
    (turn.childRows layout child isLast).map Row.bare =
      turn.bare.childRows layout child.bare isLast := by
  rw [childRows, childRows, List.map_cons, List.map_map, bare_childFirst]
  refine congrArg (List.cons _) (List.map_congr_left ?_)
  intro text _
  exact turn.bare_childNext layout child isLast text

theorem map_bare_childrenRows (children : List PlacedChild) :
    (turn.childrenRows layout children).map Row.bare =
      turn.bare.childrenRows layout (children.map PlacedChild.bare) := by
  induction children with
  | nil => rfl
  | cons child rest ih =>
      cases rest with
      | nil => exact turn.map_bare_childRows layout child true
      | cons next rest =>
          rw [childrenRows, List.map_append, List.map_cons, map_bare_childRows,
            bare_hubRow, ih]
          rfl

/-- The callout of a label without colours is its callout laid bare. -/
theorem map_bare_rows :
    (turn.rows layout).map Row.bare = turn.bare.rows layout := by
  have parents : turn.bare.label.hasChildren = turn.label.hasChildren := by
    simp [bare, PlacedLabel.bare, PlacedLabel.hasChildren]
  rw [rows, rows, parents]
  split
  · rw [List.map_append, List.map_cons, bare_hubRow, map_bare_childrenRows,
      parentRows, List.map_cons, List.map_map, bare_parentFirst]
    refine congrArg (· ++ _) (congrArg (List.cons _) (List.map_congr_left ?_))
    intro text _
    exact turn.bare_parentNext layout text
  · rw [plainRows, List.map_cons, List.map_map, bare_plainFirst]
    refine congrArg (List.cons _) (List.map_congr_left ?_)
    intro text _
    exact turn.bare_plainNext layout text

end Turn

theorem map_bare_callouts (layout : Layout) (first : Int)
    (labels : List PlacedLabel) :
    (callouts layout first labels).map Row.bare =
      callouts layout first (labels.map PlacedLabel.bare) := by
  induction labels with
  | nil => rfl
  | cons label rest ih =>
      cases rest with
      | nil => exact Turn.map_bare_rows ⟨first, label, []⟩ layout
      | cons next rest =>
          have separated : Row.bare ⟨separator first (next :: rest), none⟩ =
              ⟨separator first ((next :: rest).map PlacedLabel.bare), none⟩ := by
            rw [Row.bare, (bare_separator first (next :: rest)).2]
          rw [callouts, List.map_append, List.map_cons, Turn.map_bare_rows,
            separated, ih]
          rfl

namespace Segment

theorem sortedLabels_bare (segment : Segment) :
    segment.bare.sortedLabels = segment.sortedLabels.map PlacedLabel.bare := by
  symm
  apply List.map_mergeSort
  intro label _ other _
  rfl

/-- The rows of a segment without colours are its rows laid bare. -/
theorem map_bare_rows (segment : Segment) (layout : Layout) :
    (segment.rows layout).map Row.bare = segment.bare.rows layout := by
  rw [rows, rows, List.map_cons, List.map_cons, map_bare_callouts,
    sortedLabels_bare, Row.bare, Row.bare, bare_underbar,
    (bare_separator segment.first segment.sortedLabels).2]
  rfl

/-- Laid bare, a drawing shows the same. -/
theorem map_plain_draw_bare (segment : Segment) (layout : Layout) :
    (segment.bare.draw layout).map Line.plain =
      (segment.draw layout).map Line.plain := by
  rw [map_plain_draw, map_plain_draw, ← map_bare_rows, List.map_map]
  exact List.map_congr_left fun row _ => row.plain_bare

end Segment

end CaretReport
