import CaretReport.Proofs.BareReport
import CaretReport.Proofs.DraftStages
import CaretReport.Proofs.ExcerptText
import CaretReport.Proofs.SegmentGroups
import Mathlib

/-!
# Reports without escape sequences

The messages of a report are those of its draft, wrapped, and its text is cut out
of the text of the draft, so that neither brings in an escape character that the
draft does not hold.  Then stripping a rendered report leaves what the report
shows, which can also be read off its lines without rendering them.
-/

namespace CaretReport

/-- Moving a label changes only its columns. -/
theorem PlacedLabel.rebased_content (label : PlacedLabel) (delta : Int) :
    (label.rebased delta).message = label.message ∧
      (label.rebased delta).children = label.children ∧
      (label.rebased delta).caretColor = label.caretColor ∧
      (label.rebased delta).highlightColor = label.highlightColor := by
  unfold rebased
  split
  · exact ⟨rfl, rfl, rfl, rfl⟩
  · exact ⟨rfl, rfl, rfl, rfl⟩

/-- A line of any tokens shows its plain text when it is stripped. -/
theorem Line.stripEscapes_render {tokens : List Token}
    (free : ∀ token ∈ tokens, escapeChar ∉ token.plain) :
    stripEscapes (ofTokens tokens).render = (ofTokens tokens).plain := by
  apply Reveals.stripEscapes_eq
  apply reveals_render
  rw [plain_ofTokens]
  intro inside
  obtain ⟨token, member, here⟩ := List.mem_flatMap.mp inside
  exact free token member here

namespace Draft

variable {draft : Draft} {report : Report}

/-- Every label of a finished report carries a pushed label of the draft. -/
theorem exists_wraps_of_mem_labels (finished : draft.finish = .ok report)
    {segment : Segment} (member : segment ∈ report.segments)
    {placed : PlacedLabel} (found : placed ∈ segment.labels) :
    ∃ label ∈ draft.labels, ∃ truncated,
      Wraps draft.config label truncated placed := by
  obtain ⟨candidates, places, merged, _⟩ := exists_places_of_finish finished
  obtain ⟨group, group_mem, _, gathers⟩ :=
    exists_group_of_mem_segments merged member
  obtain ⟨candidate, inside, rfl⟩ := (gathers.labelled placed).mp found
  have candidate_mem := exists_group_iff.mp ⟨group, group_mem, inside⟩
  obtain ⟨checked, checked_mem, placing⟩ :=
    exists_source_of_forall₂ places candidate_mem
  obtain ⟨label, label_mem, index, rfl⟩ := exists_label_of_mem_records checked_mem
  obtain ⟨message, children, caret, highlight⟩ :=
    candidate.label.rebased_content (candidate.span.first - segment.first)
  have wraps := placing.wraps
  refine ⟨label, label_mem, label.leaves draft.text, ?_, ?_, ?_, ?_⟩
  · rw [message]
    exact wraps.message
  · rw [caret, children]
    exact wraps.children
  · rw [caret]
    exact wraps.caretColor
  · rw [highlight, caret]
    exact wraps.highlightColor

/-- Wrapping brings no escape characters into a message. -/
theorem escapeChar_not_mem_of_wrapMessage {text : List Char} {width : Nat}
    {styles : List Style} {message : Message} (free : escapeChar ∉ text)
    (made : wrapMessage text width styles = .ok message) :
    ∀ line ∈ message.lines, escapeChar ∉ line.plain := by
  obtain ⟨unstyled, wrapped, styled⟩ := bind_eq_ok_iff.mp made
  obtain rfl : unstyled.withStyles styles .all = message :=
    Except.ok.inj styled
  intro line member inside
  have shown : line.plain ∈ wrapLines width text := by
    have plain := List.mem_map_of_mem (f := Line.plain) member
    rwa [Message.map_plain_withStyles, Message.map_plain_of_ofText? wrapped]
      at plain
  rcases mem_of_mem_wrapLines shown inside with here | added
  · exact free here
  · cases added

theorem escapeChar_not_mem_of_notedMessage {config : Config} {truncated : Bool}
    {wrapped noted : Message}
    (free : ∀ line ∈ wrapped.lines, escapeChar ∉ line.plain)
    (made : notedMessage config truncated wrapped = .ok noted) :
    ∀ line ∈ noted.lines, escapeChar ∉ line.plain := by
  unfold notedMessage at made
  split at made
  · obtain ⟨notice, notice_made, inserted⟩ := bind_eq_ok_iff.mp made
    obtain rfl := Except.ok.inj inserted
    intro line member
    rcases List.mem_cons.mp member with rfl | old
    · change escapeChar ∉ (notice.withStyle truncationStyle).plain
      rw [Line.plain_withStyle, Line.plain_of_ofText? notice_made]
      decide
    · exact free line old
  · obtain rfl := Except.ok.inj made
    exact free

/-- A placed label shows no escape characters but those of its messages. -/
theorem Wraps.escapeChar_not_mem {config : Config} {label : Label}
    {truncated : Bool} {placed : PlacedLabel}
    (wraps : Wraps config label truncated placed)
    (message : escapeChar ∉ label.message)
    (children : ∀ child ∈ label.children, escapeChar ∉ child.message) :
    ∀ text ∈ placed.texts, escapeChar ∉ text.plain := by
  obtain ⟨wrapped, wrapping, noting⟩ := wraps.message
  intro text member
  rcases List.mem_append.mp member with own | below
  · exact escapeChar_not_mem_of_notedMessage
      (escapeChar_not_mem_of_wrapMessage message wrapping) noting text own
  · obtain ⟨child, child_mem, inside⟩ := List.mem_flatMap.mp below
    obtain ⟨source, source_mem, made⟩ :=
      exists_source_of_mapM wraps.children child_mem
    obtain ⟨child_message, child_wrapping, same⟩ := bind_eq_ok_iff.mp made
    obtain rfl := Except.ok.inj same
    exact escapeChar_not_mem_of_wrapMessage (children source source_mem)
      child_wrapping text inside

/-- The lines of text of a report show no escape characters but those of the
messages of its draft. -/
theorem escapeChar_not_mem_texts (finished : draft.finish = .ok report)
    (messages : ∀ label ∈ draft.labels, escapeChar ∉ label.message)
    (children : ∀ label ∈ draft.labels, ∀ child ∈ label.children,
      escapeChar ∉ child.message) :
    ∀ segment ∈ report.segments, ∀ label ∈ segment.labels,
      ∀ text ∈ label.texts, escapeChar ∉ text.plain := by
  intro segment member placed found
  obtain ⟨label, label_mem, truncated, wraps⟩ :=
    exists_wraps_of_mem_labels finished member found
  exact wraps.escapeChar_not_mem (messages label label_mem)
    (children label label_mem)

/-- The text of a report holds no escape characters but those of the text of its
draft. -/
theorem escapeChar_not_mem_text (finished : draft.finish = .ok report)
    (free : escapeChar ∉ draft.text) : escapeChar ∉ report.text := by
  obtain ⟨_, _, _, report_eq⟩ := exists_places_of_finish finished
  have text_eq : report.text = (draft.excerpt draft.records).text :=
    congrArg Report.text report_eq
  rw [text_eq]
  intro member
  unfold excerpt at member
  split at member
  · rcases Excerpt.mem_of_mem_text_ofSpans member with here | dot | blank
    · exact free here
    · cases dot
    · cases blank
  · exact free member

end Draft

/-- What a report shows, read off its lines.  Like a rendering, this fails where a
block cannot be made. -/
def Report.plain? (report : Report) : Except OutputError (List Char) := do
  report.segments.forM report.checkBlock
  return report.segments.flatMap report.plainBlock

/-- Stripping a rendering leaves what can be read off the unrendered tokens: the
plain text of a line, whatever its tokens are, and of a finished report the echoed
text and the plain lines of each of its segments.  A report with a block that
cannot be made fails on both ways. -/
theorem stripEscapes_render_eq_plain :
    (∀ tokens : List Token, (∀ token ∈ tokens, escapeChar ∉ token.plain) →
      stripEscapes (Line.ofTokens tokens).render =
        (Line.ofTokens tokens).plain) ∧
    ∀ (draft : Draft) (report : Report), draft.finish = .ok report →
      (∀ label ∈ draft.labels, escapeChar ∉ label.message) →
      (∀ label ∈ draft.labels, ∀ child ∈ label.children,
        escapeChar ∉ child.message) →
      (escapeChar ∉ draft.text → escapeChar ∉ report.text) ∧
      (escapeChar ∉ report.text →
        stripEscapes report.render =
            report.segments.flatMap report.plainBlock ∧
          report.render?.map stripEscapes = report.plain?) := by
  constructor
  · intro tokens free
    exact Line.stripEscapes_render free
  · intro draft report finished messages children
    refine ⟨Draft.escapeChar_not_mem_text finished, ?_⟩
    intro free
    have shown := Report.stripEscapes_render free
      (Draft.escapeChar_not_mem_texts finished messages children)
    refine ⟨shown, ?_⟩
    rw [Report.render?_eq_map, Report.plain?, ← shown]
    cases report.segments.forM report.checkBlock with
    | error cause => rfl
    | ok _ => rfl

/-- Styles in styles around a run of negative width, a text and a reset, and a
report in colours whose text lost an escape character when it was trimmed. -/
theorem stripEscapes_render_eq_plain_trimmed :
    let red : Style := .foreground (.palette ⟨.red, true⟩)
    let tokens : List Token := [
      .styled [red, .emphasis .bold] (.styled [] (.styled [red] (.text ['m']))),
      .styled [red] (.space (-2)), .reset, .text ['[', '0', 'm']]
    let draft : Draft := {
      text := escapeChar :: "a b c d".toList
      config := {
        colorizeEchoedInput := true
        enableCaretColor := true
        showRangeSuffix := true }
      labels := [{
        span := ⟨7, 7, by decide⟩
        message := "sum of".toList
        styles := [.foreground (.rgb ⟨1, 2, 3⟩), .emphasis .bold]
        children := [{ message := "why".toList }] }] }
    let shown : List Char :=
      ("... c d [6 - 6]\n      ┬\n      │\n      ╰──┬──▶ sum of\n" ++
        "         │\n         ╰─────▶ why\n\n").toList
    (∀ token ∈ tokens, escapeChar ∉ token.plain) ∧
      stripEscapes (Line.ofTokens tokens).render = ['m', '[', '0', 'm'] ∧
      (∀ label ∈ draft.labels, escapeChar ∉ label.message) ∧
      (∀ label ∈ draft.labels, ∀ child ∈ label.children,
        escapeChar ∉ child.message) ∧
      ∃ report, draft.finish = .ok report ∧ escapeChar ∉ report.text ∧
        stripEscapes report.render = shown ∧
        report.render?.map stripEscapes = .ok shown := by
  intro red tokens draft shown
  have bare : ∀ token ∈ tokens, escapeChar ∉ token.plain := by
    unfold tokens
    decide
  have messages : ∀ label ∈ draft.labels, escapeChar ∉ label.message := by
    unfold draft
    decide
  have children : ∀ label ∈ draft.labels, ∀ child ∈ label.children,
      escapeChar ∉ child.message := by
    unfold draft
    decide
  have seen : draft.finish.toOption.map (fun report =>
      (report.text, report.segments.flatMap report.plainBlock,
        report.plain?)) = some ("... c d".toList, shown, .ok shown) := by
    unfold draft shown
    cbv
  obtain ⟨report, finished, same⟩ := exists_eq_ok_of_map seen
  obtain ⟨text, rest⟩ := Prod.mk.inj same
  obtain ⟨blocks, plain⟩ := Prod.mk.inj rest
  have free : escapeChar ∉ report.text := by
    rw [text]
    decide
  obtain ⟨lines, reports⟩ := stripEscapes_render_eq_plain
  obtain ⟨stripped, rendered⟩ :=
    (reports draft report finished messages children).2 free
  exact ⟨bare, lines tokens bare, messages, children, report, finished, free,
    stripped.trans blocks, rendered.trans plain⟩

end CaretReport
