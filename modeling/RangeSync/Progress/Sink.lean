import RangeSync.Log
import RangeSync.Numeric.Fixed
import RangeSync.Progress.Update

/-!
# Sinks of progress updates

A sink keeps what it has received: the updates themselves, the text of a console line that is
printed anew whenever the tenth of a percent changes, or a log entry for every step of a given
number of percent.
-/

namespace RangeSync

open Numeric Text

/-- The line on a console. -/
structure ConsoleProgress where
  /-- The thousandths shown last, if any were. -/
  shown : Option Nat
  /-- Everything printed so far. -/
  printed : String
deriving DecidableEq, Repr

namespace ConsoleProgress

/-- Nothing shown yet. -/
def fresh : ConsoleProgress := ⟨none, ""⟩

/-- The text with spaces in front of it up to five characters. -/
def aligned (s : String) : String :=
  String.ofList (List.replicate (5 - s.length) ' ' ++ s.toList)

/-- The line for an update. It begins by going back to the start of the line, and ends the line
when all bytes are there. -/
def line (u : ProgressUpdate) : String :=
  "\r" ++ u.item ++ ": " ++ aligned (tenthsText u.permille) ++ "% (" ++
    decimal u.completed.toNat ++ "/" ++ decimal u.total.toNat ++ " bytes)" ++
    (if u.isComplete then "\n" else "")

/-- The line is printed again only if its thousandths have changed. -/
def receive (c : ConsoleProgress) (u : ProgressUpdate) : ConsoleProgress :=
  if c.shown = some u.permille then c else ⟨some u.permille, c.printed ++ line u⟩

end ConsoleProgress

/-- Log entries at steps of a number of percent. -/
structure SteppedProgress where
  /-- The percents of a step, from 1 to 100. -/
  step : Nat
  /-- The greatest number of steps reached. -/
  reached : Nat
  /-- The entries so far. -/
  entries : List Entry
deriving DecidableEq, Repr

namespace SteppedProgress

/-- Steps of the given size, brought into the range from 1 to 100. -/
def every (percent : Nat) : SteppedProgress :=
  ⟨max 1 (min percent 100), 0, []⟩

/-- The entry for an update. -/
def entry (u : ProgressUpdate) : Entry where
  level := .info
  message := "download " ++ tenthsText u.percent.tenths ++ "% complete"
  fields := [("item", u.item), ("bytes_completed", decimal u.completed.toNat),
    ("total_bytes", decimal u.total.toNat)]

/-- How many whole steps an update has reached. -/
def stepsOf (p : SteppedProgress) (u : ProgressUpdate) : Nat :=
  u.percent.floor / p.step

/-- An entry is made when more steps are reached than ever before. -/
def receive (p : SteppedProgress) (u : ProgressUpdate) : SteppedProgress :=
  if p.reached < p.stepsOf u then
    { p with reached := p.stepsOf u, entries := p.entries ++ [entry u] }
  else p

end SteppedProgress

/-- A receiver of progress updates, with what it has received. -/
inductive ProgressSink
  /-- Keeps nothing. -/
  | silent
  /-- Keeps every update, in order. -/
  | recorder (received : List ProgressUpdate)
  /-- Prints a console line. -/
  | console (state : ConsoleProgress)
  /-- Makes log entries. -/
  | stepped (state : SteppedProgress)
deriving DecidableEq, Repr

/-- The sink after an update. -/
def ProgressSink.receive (sink : ProgressSink) (u : ProgressUpdate) : ProgressSink :=
  match sink with
  | .silent => .silent
  | .recorder received => .recorder (received ++ [u])
  | .console state => .console (state.receive u)
  | .stepped state => .stepped (state.receive u)

/-- The log entries that a sink has made. -/
def ProgressSink.entries : ProgressSink → List Entry
  | .stepped state => state.entries
  | _ => []

/-- The sink with its log entries taken out. -/
def ProgressSink.withoutEntries : ProgressSink → ProgressSink
  | .stepped state => .stepped { state with entries := [] }
  | sink => sink

end RangeSync
