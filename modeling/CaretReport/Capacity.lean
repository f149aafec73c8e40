import CaretReport.Report

/-!
# Output that can be made

The width of a run of blanks or rules is an integer of any size, but to be
written its characters have to be counted in a machine word.  Likewise the range
behind an echoed text can only be written if its ends have few enough digits.
The output for a segment can be made if both hold; otherwise the first run that
is too long decides the error, and after the runs the range.
-/

namespace CaretReport

/-- Why output cannot be made: a run is too long to be counted, or a number
cannot be written or read. -/
inductive OutputError where
  | uncountable
  | number (cause : NumberError)
deriving DecidableEq, Repr

def OutputError.message : OutputError → String
  | .uncountable => "cannot fit 'int' into an index-sized integer"
  | .number cause => cause.message

/-- A check that the characters of a run of a given width can be counted. -/
def checkRun (width : Int) : Except OutputError Unit :=
  if fitsWord width then
    .ok ()
  else
    .error .uncountable

def Token.check : Token → Except OutputError Unit
  | .space width => checkRun width
  | .rule width => checkRun width
  | .styled _ inner => inner.check
  | _ => .ok ()

/-- A check that a line can be written; its first run that cannot be decides
the error. -/
def Line.check (line : Line) : Except OutputError Unit :=
  line.tokens.forM Token.check

def Message.check (message : Message) : Except OutputError Unit :=
  message.lines.forM Line.check

/-- A check that the messages of a label and of its children can be written. -/
def PlacedLabel.check (label : PlacedLabel) : Except OutputError Unit := do
  label.message.check
  label.children.forM fun child => child.message.check

def Segment.check (segment : Segment) : Except OutputError Unit :=
  segment.labels.forM PlacedLabel.check

namespace Report

/-- A check that the range behind the echoed text, if it is shown, can be
written. -/
def checkSuffix (report : Report) (segment : Segment) :
    Except OutputError Unit :=
  if report.showRangeSuffix then
    segment.toSpan.checkWritable.mapError .number
  else
    .ok ()

/-- A check that the output for a segment can be made: first its drawing, then
the range behind the echoed text. -/
def checkBlock (report : Report) (segment : Segment) :
    Except OutputError Unit := do
  (report.linesOf segment).forM Line.check
  report.checkSuffix segment

def block? (report : Report) (segment : Segment) :
    Except OutputError (List Char) := do
  report.checkBlock segment
  return report.block segment

def render? (report : Report) : Except OutputError (List Char) := do
  let blocks ← report.segments.mapM report.block?
  return blocks.flatten

end Report

theorem checkRun_eq_ok_iff (width : Int) :
    checkRun width = .ok () ↔ fitsWord width = true := by
  unfold checkRun
  cases fitsWord width <;> simp

/-- A run of some width can be written if its width is a position. -/
theorem checkRun_eq_ok_iff_of_pos {width : Int} (positive : 0 < width) :
    checkRun width = .ok () ↔ width ≤ maxPosition := by
  rw [checkRun_eq_ok_iff, fitsWord_iff]
  simp only [maxPosition]
  omega

end CaretReport
