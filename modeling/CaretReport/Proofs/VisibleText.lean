import CaretReport.Proofs.ColorRuns
import CaretReport.Proofs.EscapeSequences
import CaretReport.Proofs.RunWidths

/-!
# The visible text of a rendering

Rendering adds escape sequences to a text and nothing else.  Stripping reads the
rendered text from left to right and drops exactly these sequences, because each
of them ends in the first `m` behind its parameters and no visible character
starts one.  So what stripping leaves of a line is its plain text, and what it
leaves of a block is the echoed text above the plain text of the lines.
-/

namespace CaretReport

/-- Stripping leaves of the text exactly its visible part, whatever follows. -/
def Reveals (text visible : List Char) : Prop :=
  ∀ rest, stripEscapes (text ++ rest) = visible ++ stripEscapes rest

theorem Reveals.stripEscapes_eq {text visible : List Char}
    (reveals : Reveals text visible) : stripEscapes text = visible := by
  have alone := reveals []
  rwa [stripEscapes_nil, List.append_nil, List.append_nil] at alone

theorem reveals_nil : Reveals [] [] :=
  fun _ => rfl

theorem Reveals.append {text other visible shown : List Char}
    (reveals : Reveals text visible) (next : Reveals other shown) :
    Reveals (text ++ other) (visible ++ shown) := by
  intro rest
  rw [List.append_assoc, reveals, next, List.append_assoc]

theorem reveals_flatMap {Item : Type} {items : List Item}
    {text visible : Item → List Char}
    (each : ∀ item ∈ items, Reveals (text item) (visible item)) :
    Reveals (items.flatMap text) (items.flatMap visible) := by
  induction items with
  | nil => exact reveals_nil
  | cons item rest ih =>
      obtain ⟨here, later⟩ := List.forall_mem_cons.mp each
      exact here.append (ih later)

/-- A text that starts no escape sequence is all visible. -/
theorem reveals_self {text : List Char} (free : escapeChar ∉ text) :
    Reveals text text := by
  induction text with
  | nil => exact reveals_nil
  | cons character text ih =>
      rw [List.mem_cons, not_or] at free
      intro rest
      rw [List.cons_append, stripEscapes_cons_of_ne (Ne.symm free.1), ih free.2,
        List.cons_append]

/-- An escape sequence shows nothing. -/
theorem reveals_escapeSequence (parameters : List Nat) :
    Reveals (escapeSequence parameters) [] :=
  (isSequence_escapeSequence parameters).stripEscapes_append

/-- Styles around a text show nothing. -/
theorem reveals_wrapStyles (stack : List Style) {text visible : List Char}
    (reveals : Reveals text visible) :
    Reveals (Token.wrapStyles stack text) visible := by
  unfold Token.wrapStyles
  split
  · exact reveals
  · have opened : Reveals (stack.flatMap Style.escape)
        (stack.flatMap fun _ => []) :=
      reveals_flatMap fun style _ => reveals_escapeSequence style.parameters
    have closed : Reveals resetSequence [] := reveals_escapeSequence [0]
    have nothing : (stack.flatMap fun _ => ([] : List Char)) = [] :=
      List.flatMap_eq_nil_iff.mpr fun _ _ => rfl
    have wrapped := (opened.append reveals).append closed
    rwa [nothing, List.nil_append, List.append_nil] at wrapped

/-- What a token renders to shows its plain text. -/
theorem Token.reveals_render {token : Token}
    (free : escapeChar ∉ token.plain) : Reveals token.render token.plain := by
  induction token with
  | styled styles inner ih => exact reveals_wrapStyles _ (ih free)
  | reset => exact reveals_escapeSequence [0]
  | space width => exact reveals_self free
  | rule width => exact reveals_self free
  | glyph shape => exact reveals_self free
  | text content => exact reveals_self free

/-- What a line renders to shows its plain text. -/
theorem Line.reveals_render {line : Line} (free : escapeChar ∉ line.plain) :
    Reveals line.render line.plain := by
  apply reveals_flatMap
  intro token member
  apply Token.reveals_render
  intro inside
  exact free (List.mem_flatMap.mpr ⟨token, member, inside⟩)

section Painting

theorem reveals_renderRun {run : Option Rgb × List Char}
    (free : escapeChar ∉ run.2) : Reveals (renderRun run) run.2 := by
  obtain ⟨color, text⟩ := run
  cases color with
  | none => exact reveals_self free
  | some color =>
      have opened : Reveals (Style.foreground (.rgb color)).escape [] :=
        reveals_escapeSequence _
      have closed : Reveals resetSequence [] := reveals_escapeSequence [0]
      have painted := (opened.append (reveals_self free)).append closed
      rwa [List.nil_append, List.append_nil] at painted

/-- Painting leaves a text visibly as it is. -/
theorem reveals_paintText {text : List Char} (free : escapeChar ∉ text)
    (highlights : List Highlight) :
    Reveals (paintText text highlights) text := by
  have runs_eq : (colorRuns (paintChars highlights text)).flatMap Prod.snd =
      text := by
    rw [flatMap_snd_colorRuns, map_snd_paintChars]
  have runs : Reveals (paintText text highlights)
      ((colorRuns (paintChars highlights text)).flatMap Prod.snd) := by
    apply reveals_flatMap
    intro run member
    apply reveals_renderRun
    intro inside
    apply free
    rw [← runs_eq]
    exact List.mem_flatMap.mpr ⟨run, member, inside⟩
  rwa [runs_eq] at runs

end Painting

/-- The drawing of a segment shows no escape character but those of its
texts. -/
theorem Segment.escapeChar_not_mem_plain {segment : Segment} {layout : Layout}
    (free : ∀ label ∈ segment.labels, ∀ text ∈ label.texts,
      escapeChar ∉ text.plain) {line : Line}
    (member : line ∈ segment.draw layout) : escapeChar ∉ line.plain := by
  have shown : line.plain ∈ (segment.rows layout).map Row.plain := by
    rw [← map_plain_draw]
    exact List.mem_map_of_mem member
  obtain ⟨row, drawn, plain_eq⟩ := List.mem_map.mp shown
  rw [← plain_eq, Row.plain, List.mem_append]
  rintro (art | beside)
  · rcases (wordless_of_mem_rows layout drawn).char_of_mem_plain art with
      blank | ⟨shape, glyph⟩
    · cases blank
    · cases shape <;> cases glyph
  · cases text_eq : row.text with
    | none =>
        rw [text_eq] at beside
        cases beside
    | some text =>
        rw [text_eq] at beside
        obtain ⟨label, found, inside⟩ :=
          exists_label_of_mem_rows layout drawn text_eq
        exact free label found text inside beside

theorem escapeChar_not_mem_intDecimal (number : Int) :
    escapeChar ∉ intDecimal number := by
  have digits (number : Nat) : escapeChar ∉ natDecimal number := by
    intro member
    have digit := isDigit_of_mem_natDecimal member
    cases digit
  cases number with
  | ofNat number => exact digits number
  | negSucc number =>
      rw [intDecimal, List.mem_cons]
      rintro (sign | inside)
      · cases sign
      · exact digits _ inside

namespace Report

/-- The text echoed above a segment, without colours. -/
def plainEcho (report : Report) (segment : Segment) : List Char :=
  if report.showRangeSuffix then
    report.text ++ rangeSuffix segment
  else
    report.text

/-- A block without escape sequences: the echoed text, the plain text of the
lines, and a blank line. -/
def plainBlock (report : Report) (segment : Segment) : List Char :=
  endLine (report.plainEcho segment) ++
    (report.linesOf segment).flatMap (fun line => endLine line.plain) ++
      ['\n']

theorem escapeChar_not_mem_rangeSuffix (segment : Segment) :
    escapeChar ∉ rangeSuffix segment := by
  have first := escapeChar_not_mem_intDecimal segment.first
  have last := escapeChar_not_mem_intDecimal segment.last
  have blank : escapeChar ≠ ' ' := by decide
  have dash : escapeChar ≠ '-' := by decide
  have brackets : escapeChar ≠ '[' ∧ escapeChar ≠ ']' := by decide
  simp [rangeSuffix, Span.describe, first, last, blank, dash, brackets]

/-- The echoed text shows the text of the report, in whatever colours. -/
theorem reveals_echo {report : Report} (free : escapeChar ∉ report.text)
    (segment : Segment) :
    Reveals (report.echo segment) (report.plainEcho segment) := by
  have suffix := reveals_self (escapeChar_not_mem_rangeSuffix segment)
  have painted : Reveals (if report.colorizeEchoedInput then
      paintText report.text (highlightsOf segment)
    else
      report.text) report.text := by
    split
    · exact reveals_paintText free _
    · exact reveals_self free
  simp only [echo, plainEcho]
  split
  · exact painted.append suffix
  · exact painted

theorem reveals_endLine {text visible : List Char}
    (reveals : Reveals text visible) :
    Reveals (Report.endLine text) (Report.endLine visible) :=
  reveals.append (reveals_self (by decide))

theorem reveals_block {report : Report} (free : escapeChar ∉ report.text)
    {segment : Segment}
    (texts : ∀ label ∈ segment.labels, ∀ text ∈ label.texts,
      escapeChar ∉ text.plain) :
    Reveals (report.block segment) (report.plainBlock segment) := by
  have lines : Reveals
      ((report.linesOf segment).flatMap fun line => Report.endLine line.render)
      ((report.linesOf segment).flatMap fun line =>
        Report.endLine line.plain) := by
    apply reveals_flatMap
    intro line member
    exact reveals_endLine (Line.reveals_render
      (Segment.escapeChar_not_mem_plain texts member))
  have echoed := reveals_endLine (reveals_echo free segment)
  exact (echoed.append lines).append (reveals_self (by decide))

/-- A report shows its blocks without their escape sequences, if no character of
its text or of its messages starts one. -/
theorem stripEscapes_render {report : Report}
    (free : escapeChar ∉ report.text)
    (texts : ∀ segment ∈ report.segments, ∀ label ∈ segment.labels,
      ∀ text ∈ label.texts, escapeChar ∉ text.plain) :
    stripEscapes report.render =
      report.segments.flatMap report.plainBlock := by
  apply Reveals.stripEscapes_eq
  rw [render, blocks, ← List.flatMap_def]
  exact reveals_flatMap fun segment member =>
    reveals_block free (texts segment member)

end Report

end CaretReport
