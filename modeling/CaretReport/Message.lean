import CaretReport.Choice
import CaretReport.Line
import CaretReport.Position
import CaretReport.Wrap

/-!
# Wrapped messages

A label's message after word wrapping: one line per visual line, and never
without a line.
-/

namespace CaretReport

/-- The lines of a wrapped message: a first line and those that follow. -/
structure Message where
  first : Line
  rest : List Line
deriving DecidableEq, Repr

/-- Which lines of a message receive a style. -/
inductive StyleScope where
  | all
  | first
  | last
deriving DecidableEq, Repr

/-- Why there is no message. -/
inductive MessageError where
  | noLines
  | wrap (cause : WrapError)
  | line (cause : LineError)
  | indexTooLarge
deriving DecidableEq

def MessageError.message : MessageError → String
  | .noLines => "a wrapped message needs at least one line"
  | .wrap cause => cause.message
  | .line cause => cause.message
  | .indexTooLarge => "Python int too large to convert to C ssize_t"

namespace StyleScope

def name : StyleScope → String
  | all => "all"
  | first => "first"
  | last => "last"

def scopes : List StyleScope :=
  [all, first, last]

def ofValue? (value : Value) : Except ChoiceError StyleScope :=
  chooseByName "StyleScope" scopes name value

end StyleScope

namespace Message

def lines (message : Message) : List Line :=
  message.first :: message.rest

def ofLines? : List Line → Except MessageError Message
  | [] => .error .noLines
  | first :: rest => .ok ⟨first, rest⟩

def ofText? (text : List Char) (width : Int) : Except MessageError Message := do
  let texts ← (wrapText? text width).mapError .wrap
  let lines ← (texts.mapM Line.ofText?).mapError .line
  ofLines? lines

def isSingle (message : Message) : Bool :=
  message.rest.isEmpty

def styleLast (style : Style) : List Line → List Line
  | [] => []
  | [line] => [line.withStyle style]
  | line :: next :: rest => line :: styleLast style (next :: rest)

/-- The message with one more style nested inside the lines of a scope. -/
def withStyle (message : Message) (style : Style) (scope : StyleScope) :
    Message :=
  match scope, message.rest with
  | .all, rest =>
      ⟨message.first.withStyle style, rest.map (·.withStyle style)⟩
  | .first, rest => ⟨message.first.withStyle style, rest⟩
  | .last, [] => ⟨message.first.withStyle style, []⟩
  | .last, rest => ⟨message.first, styleLast style rest⟩

/-- The message with several more styles, each nested inside the one
before. -/
def withStyles (message : Message) (styles : List Style) (scope : StyleScope) :
    Message :=
  styles.foldl (fun styled style => styled.withStyle style scope) message

/-- Where an index into `count` lines inserts.  A negative index counts from
the end, and an index out of range is moved to the nearer end. -/
def insertionPoint (count : Nat) (index : Int) : Nat :=
  if index < 0 then
    (index + count).toNat
  else
    min index.toNat count

def insertLine (message : Message) (index : Int) (line : Line) : Message :=
  match insertionPoint message.lines.length index with
  | 0 => ⟨line, message.lines⟩
  | place + 1 => ⟨message.first, message.rest.insertIdx place line⟩

/-- The message with a line inserted before an index that fits a machine
word. -/
def insertLine? (message : Message) (index : Int) (line : Line) :
    Except MessageError Message :=
  if fitsWord index then
    .ok (message.insertLine index line)
  else
    .error .indexTooLarge

end Message

end CaretReport
