import CaretReport.Capacity

/-!
# Delivery of a report

A report is delivered to a sink block by block, one write attempt per block.  A
block is made when it is its turn; one that cannot be made ends the delivery
before its attempt.  A delivery may report its progress after every block, and
it may ask a callback what to do: the callback learns of a device error, which
it discards by returning, and a text that it returns is written after the block
unless the block itself failed.  A run is recorded as the events that an
observer of sink and callback sees.
-/

namespace CaretReport

/-- What a sink accepts. -/
inductive Encoding where
  | text
  | utf8
deriving DecidableEq, Repr

/-- What is handed over in one write. -/
inductive Chunk where
  | text (content : List Char)
  | bytes (content : List UInt8)
deriving DecidableEq, Repr

def utf8Bytes (text : List Char) : List UInt8 :=
  text.flatMap String.utf8EncodeChar

def Encoding.encode : Encoding → List Char → Chunk
  | .text, content => .text content
  | .utf8, content => .bytes (utf8Bytes content)

/-- What a failing write raises.  A device error can be handled by a callback;
any other failure ends the delivery. -/
inductive WriteError where
  | device (reason : List Char)
  | other (reason : List Char)
deriving DecidableEq, Repr

/-- Why a delivery ends early. -/
inductive DeliveryError where
  | block (cause : OutputError)
  | write (cause : WriteError)
  | callback (reason : List Char)
deriving DecidableEq, Repr

/-- A writer, given by what each write attempt raises.  Attempts are counted
from zero over the whole life of the sink. -/
structure Sink where
  encoding : Encoding
  failure : Nat → Option WriteError

/-- Which block of how many has been processed. -/
structure Progress where
  index : Nat
  total : Nat
deriving DecidableEq, Repr

namespace Progress

def isFirst (progress : Progress) : Bool :=
  progress.index == 0

def isLast (progress : Progress) : Bool :=
  progress.index + 1 == progress.total

def isOnly (progress : Progress) : Bool :=
  progress.total == 1

end Progress

/-- What a callback does. -/
inductive Reply where
  | proceed
  | append (content : List Char)
  | raise (cause : DeliveryError)
deriving DecidableEq, Repr

/-- A hook called after every block with the device error of its write, if
there was one. -/
abbrev Callback := Option (List Char) → Progress → Reply

/-- What an observer of sink and callback sees. -/
inductive DeliveryEvent where
  | wrote (chunk : Chunk)
  | failed (attempt : Nat)
  | called (reason : Option (List Char)) (index : Nat)
  | yielded (progress : Progress)
  | exhausted
deriving DecidableEq, Repr

/-- A part of a delivery: its events, the number of write attempts made by its
end, and the error that ended it. -/
structure Run where
  events : List DeliveryEvent
  attempts : Nat
  error : Option DeliveryError
deriving DecidableEq, Repr

namespace Sink

def write (sink : Sink) (attempt : Nat) (content : List Char) :
    DeliveryEvent × Option WriteError :=
  match sink.failure attempt with
  | some cause => (.failed attempt, some cause)
  | none => (.wrote (sink.encoding.encode content), none)

end Sink

namespace Run

def followedBy (run : Run) (next : Nat → Run) : Run :=
  match run.error with
  | some _ => run
  | none =>
      let later := next run.attempts
      ⟨run.events ++ later.events, later.attempts, later.error⟩

def times (run : Nat → Run) : Nat → Nat → Run
  | 0, attempt => ⟨[], attempt, none⟩
  | count + 1, attempt => (run attempt).followedBy (times run count)

def isAttempt : DeliveryEvent → Bool
  | .wrote _ => true
  | .failed _ => true
  | _ => false

def attemptsOnly (run : Run) : Run :=
  { run with events := run.events.filter isAttempt }

def written (run : Run) : List Chunk :=
  run.events.filterMap fun event =>
    match event with
    | .wrote chunk => some chunk
    | _ => none

end Run

def deliverBlock (sink : Sink) (progress : Progress) (block : List Char)
    (attempt : Nat) : Run :=
  let (event, error) := sink.write attempt block
  match error with
  | some cause => ⟨[event], attempt + 1, some (.write cause)⟩
  | none => ⟨[event, .yielded progress], attempt + 1, none⟩

def followReply (sink : Sink) (progress : Progress) (blockFailed : Bool)
    (attempt : Nat) : Reply → Run
  | .raise cause => ⟨[], attempt, some cause⟩
  | .proceed => ⟨[.yielded progress], attempt, none⟩
  | .append content =>
      if blockFailed then
        ⟨[.yielded progress], attempt, none⟩
      else
        deliverBlock sink progress content attempt

def deliverBlockWith (sink : Sink) (callback : Callback) (progress : Progress)
    (block : List Char) (attempt : Nat) : Run :=
  let (event, error) := sink.write attempt block
  match error with
  | some (.other reason) =>
      ⟨[event], attempt + 1, some (.write (.other reason))⟩
  | some (.device reason) =>
      Run.followedBy
        ⟨[event, .called (some reason) progress.index], attempt + 1, none⟩
        fun next =>
          followReply sink progress true next (callback (some reason) progress)
  | none =>
      Run.followedBy ⟨[event, .called none progress.index], attempt + 1, none⟩
        fun next => followReply sink progress false next (callback none progress)

/-- The delivery of a block that can be made; one that cannot is not
attempted. -/
def deliverMade (deliver : List Char → Nat → Run)
    (block : Except OutputError (List Char)) (attempt : Nat) : Run :=
  match block with
  | .error cause => ⟨[], attempt, some (.block cause)⟩
  | .ok content => deliver content attempt

/-- A delivery of blocks, of which the first has a given index.  With a limit,
no more than that many blocks are asked for. -/
def deliverBlocks (step : Progress → List Char → Nat → Run) (total : Nat) :
    Option Nat → Nat → List (Except OutputError (List Char)) → Nat → Run
  | some 0, _, _, attempt => ⟨[], attempt, none⟩
  | _, _, [], attempt => ⟨[.exhausted], attempt, none⟩
  | limit, index, block :: rest, attempt =>
      (deliverMade (step ⟨index, total⟩) block attempt).followedBy
        (deliverBlocks step total (limit.map (· - 1)) (index + 1) rest)

namespace Report

def iterate (report : Report) (sink : Sink) (limit : Option Nat)
    (attempt : Nat) : Run :=
  deliverBlocks (deliverBlock sink) report.segments.length limit 0
    (report.segments.map report.block?) attempt

def iterateWith (report : Report) (sink : Sink) (callback : Callback)
    (limit : Option Nat) (attempt : Nat) : Run :=
  deliverBlocks (deliverBlockWith sink callback) report.segments.length limit 0
    (report.segments.map report.block?) attempt

/-- A delivery of the whole report; its progress is not reported. -/
def write (report : Report) (sink : Sink) (attempt : Nat) : Run :=
  (report.iterate sink none attempt).attemptsOnly

end Report

end CaretReport
