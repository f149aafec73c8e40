import CaretReport.Draft

/-!
# Journal of finishing a draft

Finishing a draft leaves a journal for diagnosis: why the draft was rejected,
which ranges were truncated, how the text was trimmed, and how many labels were
merged into how many segments.
-/

namespace CaretReport

/-- An entry of the journal. -/
inductive JournalEntry where
  | noLabels
  | emptyText
  | outOfBounds (index : Nat) (span : Span)
  | truncated (index : Nat) (span clamped : Span)
  | trimmed (start stop : Int) (length : Nat)
  | merged (labels segments : Nat)
deriving DecidableEq

/-- The stage of the work that an entry belongs to. -/
inductive JournalTopic where
  | checking
  | trimming
  | merging
deriving DecidableEq, Repr

namespace JournalEntry

def topic : JournalEntry → JournalTopic
  | .trimmed .. => .trimming
  | .merged .. => .merging
  | _ => .checking

def message : JournalEntry → String
  | .noLabels => "report rejected: no labels"
  | .emptyText => "report rejected: empty input"
  | .outOfBounds index span =>
      s!"label #{index} range " ++ String.ofList span.shown ++
        " is out of bounds"
  | .truncated index span clamped =>
      s!"label #{index} range " ++ String.ofList span.shown ++
        " truncated to " ++ String.ofList clamped.shown
  | .trimmed start stop length =>
      s!"trimmed input to window [{start}, {stop}) of {length} characters"
  | .merged labels segments =>
      s!"merged {labels} labels into {segments} caret segments"

end JournalEntry

namespace Draft

def rangeRecord? (policy : BoundsPolicy) (valid : Span) (index : Nat)
    (label : Label) : Option JournalEntry :=
  if valid.covers label.span then
    none
  else if policy.truncates then
    some (.truncated index label.span (label.span.clamp valid.last))
  else
    some (.outOfBounds index label.span)

/-- What the checks of labels leave in the journal, up to the first that
fails. -/
def labelEntries (policy : BoundsPolicy) (valid : Span) :
    Nat → List Label → List JournalEntry
  | _, [] => []
  | index, label :: rest =>
      let others :=
        match checkLabel policy valid index label with
        | .ok _ => labelEntries policy valid (index + 1) rest
        | .error _ => []
      (rangeRecord? policy valid index label).toList ++ others

def checkEntries (draft : Draft) : List JournalEntry :=
  if draft.labels = [] then
    [.noLabels]
  else
    match draft.text with
    | [] => [.emptyText]
    | character :: rest =>
        labelEntries draft.config.boundsPolicy (wholeSpan character rest) 0
          draft.labels

def trimEntries (draft : Draft) (excerpt : Excerpt) : List JournalEntry :=
  if excerpt.isTrimmed then
    [.trimmed excerpt.windowStart excerpt.windowEnd draft.text.length]
  else
    []

def mergeEntries (draft : Draft) (checked : List CheckedLabel) :
    List JournalEntry :=
  match draft.assemble checked with
  | .ok report => [.merged checked.length report.segments.length]
  | .error _ => []

def journal (draft : Draft) : List JournalEntry :=
  draft.checkEntries ++
    match draft.check with
    | .error _ => []
    | .ok checked =>
        draft.trimEntries (draft.excerpt checked) ++ draft.mergeEntries checked

end Draft

end CaretReport
