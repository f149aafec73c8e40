import CaretReport.Excerpt
import CaretReport.Label
import CaretReport.Merge
import CaretReport.Report

/-!
# Drafts of a report

A draft collects labels for one text.  Finishing it checks the labels, cuts the
text down to an excerpt, wraps and places every label, and merges the labels
into segments.  Finishing changes nothing, so a rejected draft can be mended
and finished again.
-/

namespace CaretReport

/-- The text of a report, its options, and the labels pushed so far. -/
structure Draft where
  text : List Char
  config : Config := {}
  labels : List Label := []

/-- Why a draft cannot be finished: the first check that fails. -/
inductive DraftError where
  | noLabels
  | emptyText
  | emptyMessage (index : Nat) (span : Span)
  | emptyChildMessage (index childIndex : Nat) (span : Span)
  | outOfBounds (attempted valid : Span)
deriving DecidableEq

namespace DraftError

def message : DraftError → String
  | .noLabels => "no labels were pushed to the report builder"
  | .emptyText => "the reference input is empty"
  | .emptyMessage index span =>
      s!"label #{index} at " ++ String.ofList span.shown ++
        " has an empty message"
  | .emptyChildMessage index childIndex span =>
      s!"child #{childIndex} of label #{index} at " ++
        String.ofList span.shown ++ " has an empty message"
  | .outOfBounds attempted valid =>
      "label range [" ++ String.ofList attempted.describe ++
        "] is outside the input range [" ++ String.ofList valid.describe ++ "]"

/-- The spans that the message writes out. -/
def spans : DraftError → List Span
  | .noLabels => []
  | .emptyText => []
  | .emptyMessage _ span => [span]
  | .emptyChildMessage _ _ span => [span]
  | .outOfBounds attempted valid => [attempted, valid]

def isWritable (fault : DraftError) : Bool :=
  fault.spans.all Span.isWritable

end DraftError

/-- Why finishing a draft fails.  The checks of the draft are documented; the
other causes belong to the wording of a failed check and to the stages after the
checks. -/
inductive FinishError where
  | rejected (cause : DraftError)
  | wording (cause : NumberError)
  | wrapping (cause : MessageError)
  | merging (cause : SegmentError)
deriving DecidableEq

namespace FinishError

def message : FinishError → String
  | .rejected cause => cause.message
  | .wording cause => cause.message
  | .wrapping cause => cause.message
  | .merging cause => cause.message

/-- What a failed check raises.  Its message is written before it is raised, so
a span with too many digits is complained about instead. -/
def ofFault (fault : DraftError) : FinishError :=
  if fault.isWritable then .rejected fault else .wording .tooLongToWrite

end FinishError

/-- A label that passed the checks, with the span that it points at after
clamping. -/
structure CheckedLabel where
  label : Label
  span : Span
  truncated : Bool
  index : Nat
deriving DecidableEq

def emptyChild? (children : List ChildLabel) : Option Nat :=
  children.findIdx? fun child => child.message.isEmpty

/-- The check of one label against the span of the whole text: its range, its
message, and the messages of its children. -/
def checkLabel (policy : BoundsPolicy) (valid : Span) (index : Nat)
    (label : Label) : Except DraftError CheckedLabel :=
  let inside := valid.covers label.span
  if !inside && !policy.truncates then
    .error (.outOfBounds label.span valid)
  else if label.message = [] then
    .error (.emptyMessage index label.span)
  else
    match emptyChild? label.children with
    | some childIndex => .error (.emptyChildMessage index childIndex label.span)
    | none =>
        let span := if inside then label.span else label.span.clamp valid.last
        .ok ⟨label, span, !inside, index⟩

/-- The colour of a label's own glyphs: none unless caret colours are enabled,
else the explicit colour, the colour of the outermost style, or the fallback. -/
def resolveCaretColor (explicit : Option Rgb) (styles : List Style)
    (enabled : Bool) (fallback : Option Rgb) : Option Rgb :=
  if enabled then
    explicit.or ((styles.head?.bind Style.toRgb?).or fallback)
  else
    none

/-- The colour painted over the echoed text of a label: the colour of its
caret, or that of its outermost coloured style. -/
def resolveHighlight (caretColor : Option Rgb) (styles : List Style) :
    Option Rgb :=
  caretColor.or (styles.findSome? Style.toRgb?)

def caretOffset (width : Int) : Int :=
  if 4 < width then
    2
  else if 2 < width then
    width / 2 - 1
  else
    0

/-- What a message says when the range of its label was truncated. -/
def truncationNotice : List Char :=
  "[ Label Range Truncated ]".toList

def truncationStyle : Style :=
  .foreground (.palette ⟨.yellow, true⟩)

namespace Draft

def wholeSpan (character : Char) (rest : List Char) : Span :=
  ⟨0, ((character :: rest).length : Int) - 1, by simp⟩

def push (draft : Draft) (label : Label) : Draft :=
  { draft with labels := draft.labels ++ [label] }

def extend (draft : Draft) (labels : List Label) : Draft :=
  { draft with labels := draft.labels ++ labels }

def withConfig (draft : Draft) (config : Config) : Draft :=
  { draft with config := config }

/-- The checks of labels in order of declaration, up to the first that
fails. -/
def checkLabels (policy : BoundsPolicy) (valid : Span) :
    Nat → List Label → Except DraftError (List CheckedLabel)
  | _, [] => .ok []
  | index, label :: rest => do
      let checked ← checkLabel policy valid index label
      let others ← checkLabels policy valid (index + 1) rest
      return checked :: others

/-- The checked labels of a draft.  A missing label is noticed before a missing
text, and both before any label is looked at. -/
def check (draft : Draft) : Except DraftError (List CheckedLabel) :=
  if draft.labels = [] then
    .error .noLabels
  else
    match draft.text with
    | [] => .error .emptyText
    | character :: rest =>
        checkLabels draft.config.boundsPolicy (wholeSpan character rest) 0
          draft.labels

def excerpt (draft : Draft) (checked : List CheckedLabel) : Excerpt :=
  if draft.config.trimInput then
    Excerpt.ofSpans draft.text (checked.map CheckedLabel.span)
      draft.config.trimMode draft.config.trimPadding
  else
    Excerpt.untrimmed draft.text

def wrapMessage (text : List Char) (width : Nat) (styles : List Style) :
    Except MessageError Message := do
  let message ← Message.ofText? text width
  return message.withStyles styles .all

def placeChild (config : Config) (parentColor : Option Rgb)
    (child : ChildLabel) : Except MessageError PlacedChild := do
  let message ←
    wrapMessage child.message config.maxChildLabelWidth child.styles
  let color :=
    resolveCaretColor child.caretColor child.styles config.enableCaretColor
      parentColor
  return ⟨message, color⟩

/-- The message with the truncation notice above it, if one is due. -/
def notedMessage (config : Config) (truncated : Bool) (message : Message) :
    Except LineError Message :=
  if truncated && config.boundsPolicy == .truncateIndicate then do
    let notice ← Line.ofText? truncationNotice
    return message.insertLine 0 (notice.withStyle truncationStyle)
  else
    return message

def candidate (config : Config) (excerpt : Excerpt) (checked : CheckedLabel) :
    Except MessageError Candidate := do
  let label := checked.label
  let span := excerpt.rebase checked.span
  let caretColor :=
    resolveCaretColor label.caretColor label.styles config.enableCaretColor none
  let wrapped ← wrapMessage label.message config.maxLabelWidth label.styles
  let message ← (notedMessage config checked.truncated wrapped).mapError .line
  let children ← label.children.mapM (placeChild config caretColor)
  return {
    span := span
    index := checked.index
    label := {
      position := caretOffset span.length
      offset := 0
      length := span.length
      message := message
      children := children
      caretColor := caretColor
      highlightColor := resolveHighlight caretColor label.styles } }

def assemble (draft : Draft) (checked : List CheckedLabel) :
    Except FinishError Report := do
  let config := draft.config
  let excerpt := draft.excerpt checked
  let candidates ←
    (checked.mapM (candidate config excerpt)).mapError .wrapping
  let segments ←
    (mergeOverlaps config.splitOnEqualStart candidates).mapError .merging
  return {
    text := excerpt.text
    segments := segments
    showRangeSuffix := config.showRangeSuffix
    colorizeEchoedInput := config.colorizeEchoedInput
    layout := config.layout }

/-- The report of a draft, or the first reason that there is none. -/
def finish (draft : Draft) : Except FinishError Report := do
  let checked ← draft.check.mapError .ofFault
  draft.assemble checked

end Draft

end CaretReport
