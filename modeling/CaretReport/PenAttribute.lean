/-!
# Attributes of a pen

A terminal has thirteen ways of setting text off besides colour.  Each is
switched on by a code of its own; two of them may share the code that switches
them off.
-/

namespace CaretReport

/-- A way of setting text off. -/
inductive PenAttribute where
  | bold
  | dim
  | italic
  | underline
  | blink
  | rapidBlink
  | inverse
  | hidden
  | strikethrough
  | doubleUnderline
  | framed
  | encircled
  | overlined
deriving DecidableEq, Repr

namespace PenAttribute

def all : List PenAttribute :=
  [bold, dim, italic, underline, blink, rapidBlink, inverse, hidden,
    strikethrough, doubleUnderline, framed, encircled, overlined]

def code : PenAttribute → Nat
  | bold => 1
  | dim => 2
  | italic => 3
  | underline => 4
  | blink => 5
  | rapidBlink => 6
  | inverse => 7
  | hidden => 8
  | strikethrough => 9
  | doubleUnderline => 21
  | framed => 51
  | encircled => 52
  | overlined => 53

def endCode? : PenAttribute → Option Nat
  | bold => some 22
  | dim => some 22
  | italic => some 23
  | underline => some 24
  | blink => some 25
  | rapidBlink => some 26
  | inverse => some 27
  | hidden => some 28
  | strikethrough => some 29
  | doubleUnderline => none
  | framed => some 54
  | encircled => some 54
  | overlined => some 55

def name : PenAttribute → String
  | bold => "bold"
  | dim => "dim"
  | italic => "italic"
  | underline => "underline"
  | blink => "blink"
  | rapidBlink => "blink2"
  | inverse => "reverse"
  | hidden => "conceal"
  | strikethrough => "strike"
  | doubleUnderline => "underline2"
  | framed => "frame"
  | encircled => "encircle"
  | overlined => "overline"

def switches (code : Nat) : List (PenAttribute × Bool) :=
  all.filterMap fun kind =>
    if kind.code = code then
      some (kind, true)
    else if kind.endCode? = some code then
      some (kind, false)
    else
      none

theorem mem_all (kind : PenAttribute) : kind ∈ all := by
  cases kind <;> decide

end PenAttribute

end CaretReport
