import CaretReport.Capacity
import CaretReport.Proofs.SegmentLines
import CaretReport.Proofs.WrappedText
import Mathlib.Algebra.Group.Nat.Defs

/-!
# The widths of runs

Only runs of blanks and rules can be too long to be written, and they all come
from the drawing: the messages add text alone.  This file bounds the width of
every row of glyphs by the end of its segment and the column constants of the
layout.  The ranges of segments that lie in a text have few digits.  So a report
can be rendered unless the text and the layout together are too wide for a run.
-/

namespace CaretReport

theorem isWritable_iff (number : Int) :
    isWritable number = true ↔ number.natAbs < 10 ^ integerDigitLimit := by
  rw [isWritable, decide_eq_true_iff]
  exact Nat.length_toDigits_le_iff (by decide) (by decide)

theorem Span.isWritable_iff (span : Span) :
    span.isWritable = true ↔
      span.first.natAbs < 10 ^ integerDigitLimit ∧
        span.last.natAbs < 10 ^ integerDigitLimit := by
  rw [isWritable, Bool.and_eq_true, CaretReport.isWritable_iff,
    CaretReport.isWritable_iff]

namespace Token

/-- The token can be written, unless `reach` columns are too many for a run. -/
def Fits (reach : Int) (token : Token) : Prop :=
  reach ≤ maxPosition → token.check = .ok ()

theorem check_of_isText {token : Token} (isText : token.IsText) :
    token.check = .ok () := by
  induction isText with
  | text content => rfl
  | styled _ styles ih => exact ih

/-- A token that covers columns fits into as many. -/
theorem fits_of_width_le {token : Token} {reach : Int}
    (positive : 0 < token.width) (narrow : token.width ≤ reach) :
    token.Fits reach := by
  intro countable
  induction token with
  | space width =>
      exact (checkRun_eq_ok_iff_of_pos positive).mpr
        (Int.le_trans narrow countable)
  | rule width =>
      exact (checkRun_eq_ok_iff_of_pos positive).mpr
        (Int.le_trans narrow countable)
  | glyph shape => rfl
  | text content => rfl
  | reset => rfl
  | styled styles inner ih => exact ih positive narrow

theorem eq_uncountable_of_check {token : Token} {cause : OutputError}
    (failed : token.check = .error cause) : cause = .uncountable := by
  have run {width : Int} (failed : checkRun width = .error cause) :
      cause = .uncountable := by
    unfold checkRun at failed
    split at failed
    · cases failed
    · exact (Except.error.inj failed).symm
  induction token with
  | space width => exact run failed
  | rule width => exact run failed
  | glyph shape => cases failed
  | text content => cases failed
  | reset => cases failed
  | styled styles inner ih => exact ih failed

end Token

namespace Line

theorem width_space (line : Line) (width : Int) :
    (line.space width).width = line.width + max width 0 := by
  by_cases void : width ≤ 0
  · rw [space, push_of_isVoid (Token.isVoid_space_iff.mpr void)]
    omega
  · have solid := Token.solid_space_iff.mpr (Int.not_le.mp void)
    rw [space, width_push solid, Token.width]
    omega

theorem width_padTo (line : Line) (column : Int) :
    (line.padTo column).width = max line.width column := by
  rw [padTo, width_space]
  omega

theorem width_rule (line : Line) (width : Int) (style : Option Style) :
    (line.rule width style).width = line.width + max width 0 := by
  unfold rule
  split
  · omega
  · rename_i positive
    have solid := solid_inStyle_rule (Int.not_le.mp positive) style
    rw [width_push solid, width_inStyle, Token.width]
    omega

theorem width_glyph (line : Line) (shape : Glyph) (style : Option Style) :
    (line.glyph shape style).width = line.width + 1 := by
  rw [glyph, width_push (solid_inStyle_glyph shape style), width_inStyle, Token.width]

theorem width_pos_push {line : Line} {token : Token}
    (positive : ∀ other ∈ line.tokens, 0 < other.width)
    (drawn : token.isVoid = false → 0 < token.width) :
    ∀ other ∈ (line.push token).tokens, 0 < other.width := by
  refine forall_mem_push positive fun shown => ⟨drawn shown, ?_⟩
  intro last joined last_pos join
  have token_pos := drawn shown
  rw [Token.width_of_join? join]
  omega

/-- Every token of a line without text covers columns. -/
theorem Wordless.width_pos {line : Line} (wordless : line.Wordless) :
    ∀ token ∈ line.tokens, 0 < token.width := by
  induction wordless with
  | empty => simp [Line.empty]
  | space _ width ih =>
      apply width_pos_push ih
      exact Token.solid_space_iff.mp
  | rule _ width style ih =>
      unfold Line.rule
      split
      · exact ih
      · rename_i positive
        apply width_pos_push ih
        intro _
        rw [width_inStyle]
        exact Int.not_le.mp positive
  | glyph _ shape style ih =>
      apply width_pos_push ih
      intro _
      rw [width_inStyle]
      exact Int.zero_lt_one

/-- The line can be written, unless `reach` columns are too many for a run. -/
def Fits (reach : Int) (line : Line) : Prop :=
  ∀ token ∈ line.tokens, token.Fits reach

theorem check_of_fits {line : Line} {reach : Int} (fits : line.Fits reach)
    (countable : reach ≤ maxPosition) : line.check = .ok () :=
  forM_eq_ok_iff.mpr fun token member => fits token member countable

theorem eq_uncountable_of_check {line : Line} {cause : OutputError}
    (failed : line.check = .error cause) : cause = .uncountable := by
  obtain ⟨token, _, token_failed⟩ := exists_mem_of_forM_error failed
  exact Token.eq_uncountable_of_check token_failed

theorem foldr_width_nonneg {tokens : List Token}
    (positive : ∀ token ∈ tokens, 0 < token.width) :
    0 ≤ tokens.foldr (fun token rest => token.width + rest) 0 := by
  induction tokens with
  | nil => exact Int.le_refl 0
  | cons first rest ih =>
      obtain ⟨first_pos, rest_pos⟩ := List.forall_mem_cons.mp positive
      have total := ih rest_pos
      rw [List.foldr_cons]
      omega

theorem width_le_of_mem {tokens : List Token}
    (positive : ∀ token ∈ tokens, 0 < token.width) {token : Token}
    (member : token ∈ tokens) :
    token.width ≤ tokens.foldr (fun token rest => token.width + rest) 0 := by
  induction tokens with
  | nil => cases member
  | cons first rest ih =>
      obtain ⟨first_pos, rest_pos⟩ := List.forall_mem_cons.mp positive
      rw [List.foldr_cons]
      rcases List.mem_cons.mp member with rfl | later
      · have total := foldr_width_nonneg rest_pos
        omega
      · have inside := ih rest_pos later
        omega

/-- A line without text has room for each of its runs. -/
theorem Wordless.fits {line : Line} (wordless : line.Wordless) {reach : Int}
    (narrow : line.width ≤ reach) : line.Fits reach := by
  intro token member
  apply Token.fits_of_width_le (wordless.width_pos token member)
  exact Int.le_trans (width_le_of_mem wordless.width_pos member) narrow

theorem fits_push_text {line : Line} {reach : Int} (fits : line.Fits reach)
    {token : Token} (isText : token.IsText) : (line.push token).Fits reach := by
  refine forall_mem_push fits fun _ => ⟨fun _ => Token.check_of_isText isText, ?_⟩
  intro last joined _ join
  cases isText with
  | text content =>
      cases last <;> cases join
      exact fun _ => rfl
  | styled _ _ => cases last <;> cases join

theorem fits_extend {line other : Line} {reach : Int} (fits : line.Fits reach)
    (worded : other.Worded) : (line.extend other).Fits reach :=
  List.foldlRecOn _ _ fits fun _ kept token member =>
    fits_push_text kept (worded token member)

theorem fits_reset {line : Line} {reach : Int} (fits : line.Fits reach) :
    line.reset.Fits reach := by
  have writable : Token.reset.Fits reach := fun _ => rfl
  refine forall_mem_push fits fun _ => ⟨writable, ?_⟩
  intro last joined _ join
  cases last <;> cases join
  exact writable

end Line

/-- A separator reaches no further than past its last caret. -/
theorem width_separator_le {first limit : Int} {labels : List PlacedLabel}
    (sorted : labels.Pairwise fun label other =>
      label.position ≤ other.position)
    (bounds : ∀ label ∈ labels,
      0 ≤ first + label.position ∧ first + label.position < limit)
    (nonneg : 0 ≤ limit) : (separator first labels).width ≤ limit := by
  obtain ⟨text, shows, connects⟩ :=
    separator_shows sorted fun label member => (bounds label member).1
  rw [shows.width_eq]
  apply connects.stops limit nonneg
  intro column member
  obtain ⟨label, found, rfl⟩ := mem_caretColumns.mp member
  exact (bounds label found).2

namespace Turn

variable {turn : Turn}

theorem width_pendingLine_le (ordered : turn.Ordered) :
    turn.pendingLine.width ≤ turn.first + turn.hub + 1 := by
  have start := ordered.nonneg
  have here := turn.le_hub List.mem_cons_self
  apply width_separator_le (List.pairwise_cons.mp ordered.sorted).2
  · intro label member
    have behind := turn.le_hub (List.mem_cons_of_mem _ member)
    have nonneg := pending_nonneg ordered label member
    omega
  · omega

theorem width_head (ordered : turn.Ordered) {width : Int} (nonneg : 0 ≤ width) :
    (turn.head width).width =
      turn.first + turn.label.position + 1 + width := by
  have start := ordered.nonneg
  have nothing : Line.empty.width = 0 := rfl
  rw [head, Line.width_rule, Line.width_glyph, Line.width_space, nothing]
  omega

theorem width_childStart (ordered : turn.Ordered) :
    turn.childStart.width = turn.first + turn.hub + hubOffset := by
  have pending := width_pendingLine_le ordered
  rw [childStart, Line.width_padTo, hubOffset]
  omega

theorem width_hubLine (ordered : turn.Ordered) :
    turn.hubLine.width = turn.first + turn.hub + hubOffset + 1 := by
  rw [← width_childStart ordered]
  exact Line.width_glyph _ _ _

/-- How far the glyphs of a callout reach past its rightmost caret, at most. -/
theorem IsRow.width_le {layout : Layout} {row : Row} (ordered : turn.Ordered)
    (isRow : turn.IsRow layout row) :
    row.art.width ≤ turn.first + turn.hub +
      (layout.childIndent + layout.arrowPadding + 8) := by
  have hub := turn.le_hub List.mem_cons_self
  cases isRow with
  | plainFirst =>
      simp only [Turn.plainFirst, Line.width_space, Line.width_glyph]
      rw [width_head ordered (by omega)]
      omega
  | plainNext text =>
      have pending := width_pendingLine_le ordered
      simp only [Turn.plainNext, Line.width_space, Line.width_glyph,
        Line.width_padTo, turnAllowance]
      omega
  | parentFirst =>
      simp only [Turn.parentFirst, Line.width_space, Line.width_glyph,
        Line.width_rule, hubRule]
      rw [width_head ordered (by simp only [turnAllowance]; omega),
        turnAllowance]
      omega
  | parentNext text =>
      simp only [Turn.parentNext, Line.width_space, Line.width_glyph,
        width_hubLine ordered, hubOffset, hubRule]
      omega
  | hub =>
      simp only [width_hubLine ordered, hubOffset]
      omega
  | childFirst child isLast =>
      simp only [Turn.childFirst, Line.width_space, Line.width_glyph,
        Line.width_rule, width_childStart ordered, hubOffset]
      omega
  | childNext child isLast text =>
      cases isLast with
      | true =>
          simp only [Turn.childNext, if_true, Line.width_space, Line.width_glyph,
            width_childStart ordered, hubOffset]
          omega
      | false =>
          simp only [Turn.childNext, Bool.false_eq_true, if_false,
            Line.width_space, Line.width_glyph, width_childStart ordered,
            hubOffset]
          omega

end Turn

theorem mem_resetLast {lines : List Line} {line : Line}
    (member : line ∈ resetLast lines) :
    ∃ source ∈ lines, line = source ∨ line = source.reset := by
  induction lines with
  | nil => cases member
  | cons first rest ih =>
      cases rest with
      | nil =>
          rw [resetLast, List.mem_singleton] at member
          exact ⟨first, List.mem_cons_self, Or.inr member⟩
      | cons next rest =>
          rcases List.mem_cons.mp member with here | later
          · exact ⟨first, List.mem_cons_self, Or.inl here⟩
          · obtain ⟨source, found, same⟩ := ih later
            exact ⟨source, List.mem_cons_of_mem first found, same⟩

namespace Segment

/-- Every line of text of the segment's labels holds nothing but text. -/
def Worded (segment : Segment) : Prop :=
  ∀ label ∈ segment.labels, ∀ text ∈ label.texts, text.Worded

/-- The segment lies in a text, at positions that need no saturation, and has
text for messages. -/
structure LiesIn (segment : Segment) (text : List Char) : Prop where
  first_nonneg : 0 ≤ segment.first
  last_lt : segment.last < text.length
  last_lt_max : segment.last < maxPosition
  worded : segment.Worded

/-- The ends of a segment inside the range of positions can be written. -/
theorem LiesIn.isWritable {segment : Segment} {text : List Char}
    (lies : segment.LiesIn text) : segment.toSpan.isWritable = true := by
  have ordered := segment.ordered
  have nonneg := lies.first_nonneg
  have bounded := lies.last_lt_max
  have short : maxPosition.natAbs < 10 ^ integerDigitLimit :=
    (Nat.length_toDigits_le_iff (by decide) (by decide)).mp (by decide)
  rw [Span.isWritable_iff]
  omega

variable {segment : Segment} {layout : Layout}

/-- How far the glyphs of a row reach past the end of the segment, at most. -/
theorem width_le_of_mem_rows (nonneg : 0 ≤ segment.first) {row : Row}
    (member : row ∈ segment.rows layout) :
    row.art.width ≤ segment.last +
      (layout.childIndent + layout.arrowPadding + 8) := by
  have ordered := segment.ordered
  have inside : ∀ label ∈ segment.sortedLabels,
      0 ≤ segment.first + label.position ∧
        segment.first + label.position < segment.last + 1 := by
    intro label found
    have bounds := segment.carets_inside label (mem_sortedLabels.mp found)
    omega
  have separator_le {labels : List PlacedLabel}
      (suffix : labels <:+ segment.sortedLabels) :
      (separator segment.first labels).width ≤ segment.last + 1 :=
    width_separator_le (pairwise_sortedLabels.sublist suffix.sublist)
      (fun label found => inside label (suffix.subset found)) (by omega)
  rcases List.mem_cons.mp member with rfl | member
  · obtain ⟨text, shows, _, length⟩ := underbar_shows nonneg segment.ordered
      pairwise_sortedLabels fun label found =>
        segment.carets_inside label (mem_sortedLabels.mp found)
    dsimp only
    rw [shows.width_eq]
    omega
  rcases List.mem_cons.mp member with rfl | member
  · have width := separator_le (List.suffix_refl _)
    dsimp only
    omega
  rcases cases_of_mem_callouts member with ⟨label, pending, suffix, isRow⟩ |
    ⟨pending, suffix, rfl⟩
  · let turn : Turn := ⟨segment.first, label, pending⟩
    have turn_ordered : turn.Ordered :=
      ⟨(inside label (suffix.subset List.mem_cons_self)).1,
        pairwise_sortedLabels.sublist suffix.sublist⟩
    obtain ⟨last, last_mem, hub_eq⟩ := turn.exists_position_eq_hub
    have last_inside := inside last (suffix.subset last_mem)
    have width : row.art.width ≤ segment.first + turn.hub +
        (layout.childIndent + layout.arrowPadding + 8) :=
      isRow.width_le turn_ordered
    omega
  · have width := separator_le suffix
    dsimp only
    omega

theorem worded_of_mem_rows (worded : segment.Worded) {row : Row}
    (member : row ∈ segment.rows layout) {text : Line}
    (beside : row.text = some text) : text.Worded := by
  obtain ⟨label, found, inside⟩ := exists_label_of_mem_rows layout member beside
  exact worded label found text inside

/-- Every line that is drawn can be written, unless the columns up to the end
of the segment and those of the layout are together too many for a run. -/
theorem fits_of_mem_draw (nonneg : 0 ≤ segment.first) (worded : segment.Worded)
    {line : Line} (member : line ∈ segment.draw layout) :
    line.Fits (segment.last +
      (layout.childIndent + layout.arrowPadding + 8)) := by
  obtain ⟨source, found, same⟩ := mem_resetLast member
  obtain ⟨row, drawn, rfl⟩ := List.mem_map.mp found
  have art := (wordless_of_mem_rows layout drawn).fits
    (width_le_of_mem_rows nonneg drawn)
  have row_fits : row.line.Fits (segment.last +
      (layout.childIndent + layout.arrowPadding + 8)) := by
    unfold Row.line
    split
    · exact art
    · rename_i text beside
      exact Line.fits_extend art (worded_of_mem_rows worded drawn beside)
  rcases same with rfl | rfl
  · exact row_fits
  · exact Line.fits_reset row_fits

end Segment

namespace Report

/-- The columns of the echoed text and of the layout beside it. -/
def reach (report : Report) : Int :=
  report.text.length +
    (report.layout.childIndent + report.layout.arrowPadding + 7)

theorem block?_eq_ok {report : Report} {segment : Segment} {text : List Char}
    (written : report.block? segment = .ok text) :
    text = report.block segment := by
  obtain ⟨_, _, same⟩ := bind_eq_ok_iff.mp written
  exact (Except.ok.inj same).symm

theorem checkSuffix_eq_error_iff {report : Report} {segment : Segment}
    {cause : OutputError} :
    report.checkSuffix segment = .error cause ↔
      report.showRangeSuffix = true ∧ segment.toSpan.isWritable = false ∧
        cause = .number .tooLongToWrite := by
  unfold checkSuffix Span.checkWritable
  cases report.showRangeSuffix <;> cases segment.toSpan.isWritable <;>
    simp [Except.mapError, eq_comm]

theorem isWritable_of_checkSuffix {report : Report} {segment : Segment}
    (passed : report.checkSuffix segment = .ok ())
    (shown : report.showRangeSuffix = true) :
    segment.toSpan.isWritable = true := by
  by_contra long
  rw [Bool.not_eq_true] at long
  rw [checkSuffix_eq_error_iff.mpr ⟨shown, long, rfl⟩] at passed
  cases passed

/-- The block of a segment is made if all runs of its lines can be counted and the
range behind the echoed text, if it is shown, can be written.  A run that is too
long is noticed before the range. -/
theorem block?_cases (report : Report) (segment : Segment) :
    (report.block? segment = .ok (report.block segment) ∧
      (∀ line ∈ report.linesOf segment, line.check = .ok ()) ∧
        (report.showRangeSuffix = true → segment.toSpan.isWritable = true)) ∨
    (report.block? segment = .error .uncountable ∧
      ∃ line ∈ report.linesOf segment, line.check = .error .uncountable) ∨
    report.block? segment = .error (.number .tooLongToWrite) ∧
      (∀ line ∈ report.linesOf segment, line.check = .ok ()) ∧
        report.showRangeSuffix = true ∧ segment.toSpan.isWritable = false := by
  unfold block? checkBlock
  cases lines : (report.linesOf segment).forM Line.check with
  | error cause =>
      obtain ⟨line, drawn, failed⟩ := exists_mem_of_forM_error lines
      obtain rfl := Line.eq_uncountable_of_check failed
      exact Or.inr (Or.inl ⟨rfl, line, drawn, failed⟩)
  | ok _ =>
      have each := forM_eq_ok_iff.mp lines
      cases suffix : report.checkSuffix segment with
      | error cause =>
          obtain ⟨shown, long, rfl⟩ := checkSuffix_eq_error_iff.mp suffix
          exact Or.inr (Or.inr ⟨rfl, each, shown, long⟩)
      | ok _ => exact Or.inl ⟨rfl, each, isWritable_of_checkSuffix suffix⟩

theorem mapM_block?_eq_ok {report : Report} {blocks : List (List Char)}
    (made : report.segments.mapM report.block? = .ok blocks) :
    blocks = report.blocks := by
  have each := ((mapM_eq_ok_iff _ _ _).mp made).imp
    fun segment block written => (block?_eq_ok written).symm
  rwa [← List.forall₂_map_left_iff, List.forall₂_eq_eq_eq, eq_comm] at each

/-- A rendering that succeeds is that of the report. -/
theorem render?_eq_ok {report : Report} {text : List Char}
    (rendered : report.render? = .ok text) : text = report.render := by
  obtain ⟨blocks, made, same⟩ := bind_eq_ok_iff.mp rendered
  rw [render, ← mapM_block?_eq_ok made]
  exact (Except.ok.inj same).symm

/-- A rendering fails only for a block that cannot be made. -/
theorem exists_segment_of_render?_error {report : Report} {cause : OutputError}
    (failed : report.render? = .error cause) :
    ∃ segment ∈ report.segments, report.block? segment = .error cause := by
  rcases bind_eq_error_iff.mp failed with blocks | ⟨_, _, kept⟩
  · exact exists_mem_of_mapM_error blocks
  · cases kept

/-- A report whose segments lie in its text renders, or fails because its reach is
too wide for a run. -/
theorem render?_cases {report : Report}
    (lie : ∀ segment ∈ report.segments, segment.LiesIn report.text) :
    report.render? = .ok report.render ∨
      report.render? = .error .uncountable ∧ maxPosition < report.reach := by
  cases rendered : report.render? with
  | ok text => exact Or.inl (congrArg _ (render?_eq_ok rendered))
  | error cause =>
      obtain ⟨segment, member, failed⟩ :=
        exists_segment_of_render?_error rendered
      have lies := lie segment member
      rcases report.block?_cases segment with ⟨made, _⟩ |
        ⟨uncounted, line, drawn, line_failed⟩ | ⟨_, _, _, long⟩
      · rw [made] at failed
        cases failed
      · obtain rfl := Except.error.inj (failed.symm.trans uncounted)
        refine Or.inr ⟨rfl, Int.not_le.mp fun countable => ?_⟩
        have fits := Segment.fits_of_mem_draw lies.first_nonneg lies.worded drawn
        have inside := lies.last_lt
        unfold reach at countable
        rw [Line.check_of_fits fits (by omega)] at line_failed
        cases line_failed
      · rw [lies.isWritable] at long
        cases long

end Report

end CaretReport
