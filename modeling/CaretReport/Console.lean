import CaretReport.TerminalText

/-!
# Consoles

A report can be printed to a console, which keeps the styles only if it writes
in colour.  How a console writes a line is its own affair.  Managed consoles are
shared: there is one for each combination of colour preference and terminal.
-/

namespace CaretReport

/-- What standard output is attached to. -/
inductive StandardOutput where
  | terminal
  | plain
  | closed
  | unaware
  | missing
deriving DecidableEq, Repr

/-- Whether standard output is a terminal; one that cannot tell is none. -/
def StandardOutput.isTerminal : StandardOutput → Bool
  | .terminal => true
  | _ => false

/-- A console: the preference for colour that it was made for, and whether it
writes to a terminal. -/
structure Console where
  color : Bool
  terminal : Bool
deriving DecidableEq, Repr

namespace Console

def ofOutput (color : Bool) (output : StandardOutput) : Console :=
  ⟨color, output.isTerminal⟩

def writesStyles (console : Console) : Bool :=
  console.color && console.terminal

end Console

/-- The consoles handed out so far, the earliest first. -/
structure ConsolePool where
  consoles : List Console := []
deriving DecidableEq, Repr

namespace ConsolePool

/-- The number of a console in the pool, which takes it up if it is new. -/
def request (pool : ConsolePool) (console : Console) : ConsolePool × Nat :=
  match pool.consoles.findIdx? (· == console) with
  | some number => (pool, number)
  | none => (⟨pool.consoles ++ [console]⟩, pool.consoles.length)

end ConsolePool

namespace Report

/-- What printing the report writes to a console that writes lines in some way:
every block is followed by a blank line. -/
def print (report : Report) (writeLine : List Piece → List Char) :
    Except OutputError (List Char) := do
  let blocks ← report.terminalBlocks
  return blocks.flatMap fun block =>
    block.flatMap (fun line => endLine (writeLine line)) ++ ['\n']

end Report

end CaretReport
