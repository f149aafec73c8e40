import CaretReport.Proofs.BareDrawing
import CaretReport.Proofs.VisibleText

/-!
# Reports without colour

A report is laid bare by dropping the colours of its labels and of the echoed
text.  The bare report can be rendered exactly when the report can, because the
same runs have to be written, and the two renderings show the same text.
-/

namespace CaretReport

/-- A further token is checked like none if it is no run and what it is joined
to is checked as before. -/
theorem forM_check_pushToken {tokens : List Token} {token : Token}
    (writable : token.check = .ok ())
    (joins : ∀ last joined : Token, last.join? token = some joined →
      joined.check = last.check) :
    (pushToken tokens token).forM Token.check = tokens.forM Token.check := by
  fun_induction pushToken tokens token with
  | case1 token =>
      change (token.check >>= fun _ => pure ()) = pure ()
      rw [writable]
      rfl
  | case2 last token joined join =>
      change (joined.check >>= fun _ => pure ()) = last.check >>= fun _ => pure ()
      rw [joins last joined join]
  | case3 last token _ =>
      change (last.check >>= fun _ => token.check >>= fun _ => pure ()) =
        last.check >>= fun _ => pure ()
      rw [writable]
      rfl
  | case4 first second rest token ih =>
      exact congrArg (first.check >>= fun _ => ·) (ih writable joins)

namespace Line

theorem check_push {line : Line} {token : Token}
    (writable : token.check = .ok ())
    (joins : ∀ last joined : Token, last.join? token = some joined →
      joined.check = last.check) : (line.push token).check = line.check := by
  unfold push
  split
  · rfl
  · exact forM_check_pushToken writable joins

theorem check_push_text (line : Line) {token : Token} (isText : token.IsText) :
    (line.push token).check = line.check := by
  apply check_push (Token.check_of_isText isText)
  intro last joined join
  cases isText with
  | text content =>
      cases last <;> cases join
      rfl
  | styled _ _ => cases last <;> cases join

theorem check_reset (line : Line) : line.reset.check = line.check := by
  apply check_push rfl
  intro last joined join
  cases last <;> cases join
  rfl

theorem check_extend (line : Line) {text : Line} (worded : text.Worded) :
    (line.extend text).check = line.check :=
  List.foldlRecOn (motive := fun longer => longer.check = line.check) _ _ rfl
    fun longer same _ member =>
      (check_push_text longer (worded _ member)).trans same

end Line

/-- A row with text beside its glyphs can be written if its glyphs can. -/
theorem Row.check_line {row : Row}
    (worded : ∀ text, row.text = some text → text.Worded) :
    row.line.check = row.art.check := by
  obtain ⟨art, text⟩ := row
  cases text with
  | none => rfl
  | some text => exact art.check_extend (worded text rfl)

theorem forM_check_resetLast (lines : List Line) :
    (resetLast lines).forM Line.check = lines.forM Line.check := by
  induction lines with
  | nil => rfl
  | cons line rest ih =>
      cases rest with
      | nil => exact congrArg (· >>= fun _ => pure ()) line.check_reset
      | cons next rest => exact congrArg (line.check >>= fun _ => ·) ih

theorem PlacedLabel.texts_bare (label : PlacedLabel) :
    label.bare.texts = label.texts := by
  simp only [texts, bare, List.flatMap_map]
  rfl

namespace Segment

variable {segment : Segment} {layout : Layout}

theorem forM_check_draw (worded : segment.Worded) :
    (segment.draw layout).forM Line.check =
      (segment.rows layout).forM fun row => row.art.check := by
  rw [draw, forM_check_resetLast]
  apply forM_eq_of_forall₂
  rw [List.forall₂_map_left_iff, List.forall₂_same]
  intro row drawn
  exact Row.check_line fun text beside => worded_of_mem_rows worded drawn beside

/-- A property of the texts of a segment is one of the bare segment. -/
theorem forall_texts_bare {holds : Line → Prop}
    (all : ∀ label ∈ segment.labels, ∀ text ∈ label.texts, holds text) :
    ∀ label ∈ segment.bare.labels, ∀ text ∈ label.texts, holds text := by
  intro label member
  obtain ⟨source, found, rfl⟩ := List.mem_map.mp member
  rw [PlacedLabel.texts_bare]
  exact all source found

/-- Laid bare, a drawing can be written if it could be before. -/
theorem forM_check_draw_bare (worded : segment.Worded) :
    (segment.bare.draw layout).forM Line.check =
      (segment.draw layout).forM Line.check := by
  rw [forM_check_draw worded, forM_check_draw (forall_texts_bare worded),
    ← map_bare_rows]
  apply forM_eq_of_forall₂
  rw [List.forall₂_map_left_iff, List.forall₂_same]
  exact fun row _ => row.art.check_bare

end Segment

namespace Report

/-- The report without the colours of its labels and of the echoed text. -/
def bare (report : Report) : Report :=
  { report with
    segments := report.segments.map Segment.bare
    colorizeEchoedInput := false }

/-- What is shown for a bare segment is what was shown before. -/
theorem plainBlock_bare (report : Report) (segment : Segment) :
    report.bare.plainBlock segment.bare = report.plainBlock segment := by
  have lines : (report.bare.linesOf segment.bare).flatMap
      (fun line => endLine line.plain) =
        (report.linesOf segment).flatMap fun line => endLine line.plain := by
    have plain := congrArg (List.flatMap endLine)
      (segment.map_plain_draw_bare report.layout)
    rwa [List.flatMap_map, List.flatMap_map] at plain
  rw [plainBlock, plainBlock, lines]
  rfl

/-- A rendering succeeds exactly if all blocks can be made. -/
theorem render?_eq_map (report : Report) :
    report.render? =
      (report.segments.forM report.checkBlock).map fun _ => report.render := by
  have blocks (segments : List Segment) : segments.mapM report.block? =
      (segments.forM report.checkBlock).map fun _ =>
        segments.map report.block := by
    induction segments with
    | nil => rfl
    | cons segment rest ih =>
        rw [List.mapM_cons, ih, block?, List.forM_eq_forM, List.forM_cons]
        cases report.checkBlock segment with
        | error cause => rfl
        | ok _ => cases forM rest report.checkBlock <;> rfl
  rw [render?, blocks]
  cases report.segments.forM report.checkBlock <;> rfl

/-- Without colours the same blocks can be made, and the others fail alike. -/
theorem forM_checkBlock_bare {report : Report}
    (worded : ∀ segment ∈ report.segments, segment.Worded) :
    report.bare.segments.forM report.bare.checkBlock =
      report.segments.forM report.checkBlock := by
  apply forM_eq_of_forall₂
  rw [bare, List.forall₂_map_left_iff, List.forall₂_same]
  intro segment member
  exact congrArg (· >>= fun _ => report.checkSuffix segment)
    (Segment.forM_check_draw_bare (worded segment member))

variable {report : Report} (free : escapeChar ∉ report.text)
variable (texts : ∀ segment ∈ report.segments, ∀ label ∈ segment.labels,
  ∀ text ∈ label.texts, escapeChar ∉ text.plain)

include free texts

/-- Stripped of its escape sequences, the output of a report is that of the bare
report. -/
theorem stripEscapes_render_bare :
    stripEscapes report.render = stripEscapes report.bare.render := by
  have bare_texts : ∀ segment ∈ report.bare.segments,
      ∀ label ∈ segment.labels, ∀ text ∈ label.texts,
        escapeChar ∉ text.plain := by
    intro segment member
    obtain ⟨source, found, rfl⟩ := List.mem_map.mp member
    exact Segment.forall_texts_bare (texts source found)
  have laid_bare : stripEscapes report.bare.render =
      (report.segments.map Segment.bare).flatMap report.bare.plainBlock :=
    stripEscapes_render free bare_texts
  rw [stripEscapes_render free texts, laid_bare, List.flatMap_map]
  exact List.flatMap_congr fun segment _ =>
    (report.plainBlock_bare segment).symm

theorem map_stripEscapes_render?
    (worded : ∀ segment ∈ report.segments, segment.Worded) :
    report.render?.map stripEscapes =
      report.bare.render?.map stripEscapes := by
  rw [render?_eq_map, render?_eq_map, forM_checkBlock_bare worded]
  cases report.segments.forM report.checkBlock with
  | error cause => rfl
  | ok _ => exact congrArg Except.ok (stripEscapes_render_bare free texts)

end Report

end CaretReport
