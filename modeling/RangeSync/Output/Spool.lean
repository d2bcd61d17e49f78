import RangeSync.Disk.Basic

/-!
# Spools

A spool holds the bytes of an output that is not ready to be seen. It is kept in memory up to a
limit and then moved to a file that has no name; either way it is a row of bytes with a position.
What can be told apart is only what fails: the greatest position of a file is smaller.

Memory is taken to be without end. A buffer that has to grow to `2 ^ 63` bytes or more ends the
program; here that is a length like any other, which a spool reaches if its limit lets it.

Nobody else sees the bytes, so each change of them is put on record, with the length that it leaves
them with.
-/

namespace RangeSync

open Disk

/-- Bytes with a position. -/
structure Spool where
  bytes : List UInt8
  position : Nat
  /-- The most bytes that are kept in memory. -/
  limit : Nat
  /-- The bytes have been moved to a file. -/
  onDisk : Bool
deriving DecidableEq, Repr

/-- Where a move of the position is counted from. -/
inductive SeekFrom
  | start (offset : Nat)
  | current (distance : Int)
  | fromEnd (distance : Int)
deriving DecidableEq, Repr

/-- The position that a move leads to. -/
def SeekFrom.target (s : SeekFrom) (position length : Nat) : Int :=
  match s with
  | .start offset => offset
  | .current distance => position + distance
  | .fromEnd distance => length + distance

/-- The position that a move leads to, if it lies between the start and the greatest position. -/
def SeekFrom.within? (s : SeekFrom) (position length greatest : Nat) : Option Nat :=
  let target := s.target position length
  if 0 ≤ target ∧ target ≤ greatest then some target.toNat else none

/-- An action on a spool; it may use the disk. -/
abbrev SpoolAct (α : Type) := Act (Spool × Disk) IoKind α

namespace Spool

/-- An empty spool. -/
def empty (limit : Nat) : Spool := ⟨[], 0, limit, false⟩

/-- The greatest position of the bytes in memory. -/
def memoryLimit : Nat := UInt64.size - 1

/-- The greatest position. -/
def greatest (s : Spool) : Nat :=
  if s.onDisk then fileLimit else memoryLimit

/-- An operation on the disk. -/
def onFiles {α : Type} (act : FileAct α) : SpoolAct α :=
  act.within (·.2) (fun d t => (t.1, d)) id

/-- Move the bytes to a file. The position has to be one that a file can have. -/
def roll : SpoolAct Unit := do
  let (s, _) ← get
  if !s.onDisk then
    onFiles attempt
    onFiles attempt
    if fileLimit < s.position then throw .invalidInput
    modify fun (s, d) => ({ s with onDisk := true }, d)

/-- Put on record how many bytes there are. -/
def record : SpoolAct Unit :=
  modify fun (s, d) => (s, { d with spooled := s.bytes.length :: d.spooled })

/-- Cut or extend the bytes. In memory there is room for any length. -/
def setLength (length : Nat) : SpoolAct Unit := do
  let (s, _) ← get
  if s.limit < length then roll
  let (s, _) ← get
  if s.onDisk then
    onFiles attempt
    if fileLimit < length then throw .invalidInput
  modify fun (s, d) => ({ s with bytes := resized s.bytes length }, d)
  record

/-- Write bytes at the position and go on behind them. -/
def write (data : List UInt8) : SpoolAct Unit := do
  if data.isEmpty then pure ()
  else
    let (s, _) ← get
    if s.limit < s.position + data.length then roll
    let (s, _) ← get
    if s.onDisk then onFiles attempt
    modify fun (s, d) =>
      ({ s with
          bytes := overlay s.bytes s.position data
          position := s.position + data.length }, d)
    record

/-- Move the position. -/
def seek (target : SeekFrom) : SpoolAct Nat := do
  let (s, _) ← get
  if s.onDisk then onFiles attempt
  match target.within? s.position s.bytes.length s.greatest with
  | none => throw .invalidInput
  | some position =>
    modify fun (s, d) => ({ s with position }, d)
    pure position

/-- The bytes from the position on; the position goes to the end of the bytes. -/
def readAll : SpoolAct (List UInt8) := do
  let (s, _) ← get
  if s.onDisk then onFiles attempt
  modify fun (s, d) => ({ s with position := max s.position s.bytes.length }, d)
  pure (s.bytes.drop s.position)

end Spool
end RangeSync
