import RangeSync.Log
import RangeSync.Progress.Tracker
import RangeSync.Rebuild.Fault

/-!
# The world of a run

Everything that a run reads and changes outside of its own values: the disk, the net, the programs,
the count of downloaded bytes and the log. A world is a value, so what a run has done is what its
last world shows.
-/

namespace RangeSync

/-- What a run works on. -/
structure World where
  disk : Disk
  net : Http.Net
  programs : Programs
  /-- The count of downloaded bytes; missing if nobody counts. -/
  progress : Option Tracker
  log : List Entry
  /-- Entries about the ordinary course of things are made at all. -/
  isVerbose : Bool

/-- An action on the world that can fail for one of the causes of a rebuild. -/
abbrev Work (α : Type) := Act World (Stop RebuildFault) α

namespace World

variable {α : Type}

/-- An operation on files. -/
def onDisk (act : FileAct α) : Work α :=
  act.within (·.disk) (fun disk w => { w with disk }) fun kind => .failed (.files kind)

/-- Put an entry into the log. -/
def note {ε : Type} (entry : Entry) : Act World ε Unit :=
  modify fun w => { w with log := w.log ++ [entry] }

/-- Count bytes that were downloaded. More than were announced are not possible. What the sink says
about them goes to the log at once. -/
def count (increment : Nat) : Work Unit := do
  let w ← get
  match w.progress with
  | none => pure ()
  | some tracker =>
    match tracker.advance (UInt64.ofNat increment) with
    | .ok tracker =>
      set { w with
        progress := some { tracker with sink := tracker.sink.withoutEntries }
        log := w.log ++ tracker.sink.entries }
    | .error tracker =>
      set { w with progress := some tracker }
      Act.crash

/-- Announce how many bytes will be downloaded. -/
def announce (total : UInt64) : Work Unit :=
  modify fun w => { w with progress := w.progress.map (·.announce total) }

/-- Everything that was announced has been downloaded. -/
def assertComplete : Work Unit := do
  match (← get).progress with
  | none => pure ()
  | some tracker => if tracker.isComplete then pure () else Act.crash

end World
end RangeSync
