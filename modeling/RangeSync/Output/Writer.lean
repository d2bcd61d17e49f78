import RangeSync.Digest.Sha1
import RangeSync.Output.Destination
import RangeSync.Output.Spool

/-!
# Writing an output

A writer holds an output under construction. It starts with a given number of zeros and is then
filled from several places, with a position that can be moved. An output of its own is written
directly; one that replaces the seed is collected in a spool, and the seed is replaced in one step
when the writer is committed. So the seed is never seen half written, and it can be read to the
end.

Both kinds of writer answer alike; `Spool` and an open file are two forms of a row of bytes with a
position.
-/

namespace RangeSync

open Disk

/-- What is behind a writer. -/
inductive Backing
  /-- An open file, and the position in it. -/
  | direct (place : Location) (position : Nat)
  | staged (spool : Spool)
deriving DecidableEq, Repr

/-- An output under construction. -/
structure Writer where
  backing : Backing
  /-- The path where the output is to be found in the end. -/
  path : String
  /-- The length of the finished output. -/
  length : UInt64
deriving DecidableEq, Repr

/-- An action on a writer and its disk. -/
abbrev WriterAct (α : Type) := Act (Writer × Disk) IoKind α

namespace Writer

/-- **Open a writer** with `length` zeros. The file at an output path is emptied or created at
once. -/
def openAt (destination : Destination) (seed : String) (length : UInt64) (memoryLimit : Nat) :
    FileAct Writer :=
  match destination with
  | .file path => do
    let place ← openTruncated path
    Disk.setLength place length.toNat
    pure ⟨.direct place 0, path, length⟩
  | .replaceSeed =>
    ExceptT.mk fun d =>
      let (result, spool, d) := (Spool.setLength length.toNat).runOn (Spool.empty memoryLimit, d)
      (result.map fun () => ⟨.staged spool, seed, length⟩, d)

/-- An operation on the disk. -/
def onFiles {α : Type} (act : FileAct α) : WriterAct α :=
  act.within (·.2) (fun d t => (t.1, d)) id

/-- An operation on the spool of a staged writer. -/
def onSpool {α : Type} (spool : Spool) (act : SpoolAct α) : WriterAct α :=
  act.within (fun t => (spool, t.2)) (fun s t => ({ t.1 with backing := .staged s.1 }, s.2)) id

/-- Move to another position of an open file. -/
def place (place : Location) (position : Nat) : WriterAct Unit :=
  modify fun (w, d) => ({ w with backing := .direct place position }, d)

/-- The bytes of an open file. -/
def content (d : Disk) (place : Location) : List UInt8 :=
  (d.tree.bytes? place).getD []

/-- Write bytes at the position and go on behind them. -/
def write (data : List UInt8) : WriterAct Unit := do
  match (← get).1.backing with
  | .direct file position =>
    if data.isEmpty then pure ()
    else
      onFiles (writeAt file position data)
      place file (position + data.length)
  | .staged spool => onSpool spool (Spool.write data)

/-- Hand on what is waiting to be written; nothing ever waits. -/
def flush : WriterAct Unit :=
  pure ()

/-- Move the position, and answer the new one. -/
def seek (target : SeekFrom) : WriterAct Nat := do
  match (← get).1.backing with
  | .direct file position =>
    onFiles attempt
    let length := (content (← get).2 file).length
    match target.within? position length fileLimit with
    | none => throw .invalidInput
    | some position =>
      place file position
      pure position
  | .staged spool => onSpool spool (Spool.seek target)

/-- Move the position to an offset. -/
def seekTo (offset : Nat) : WriterAct Unit := do
  let _ ← seek (.start offset)

/-- The digest of all bytes; the position goes to their end. -/
def digest : WriterAct String := do
  let _ ← seek (.start 0)
  match (← get).1.backing with
  | .direct file _ =>
    onFiles attempt
    let bytes := content (← get).2 file
    place file bytes.length
    pure (Digest.sha1Hex bytes)
  | .staged spool => do
    let bytes ← onSpool spool Spool.readAll
    pure (Digest.sha1Hex bytes)

/-- Fill a temporary file and put it into the place of a path: its bytes, made durable, with the
permission bits of the file that the path leads to. -/
def fillAndRename (temporary : Location) (path : String) (bytes : List UInt8) : FileAct Unit := do
  if !bytes.isEmpty then writeAt temporary 0 bytes
  synchronize
  match ← mode? path with
  | some mode => setMode temporary mode
  | none => pure ()
  rename temporary path

/-- Put bytes into the place of a path by way of a temporary file in the same folder. If a step
fails, the temporary file is removed. -/
def replace (path : String) (bytes : List UInt8) : FileAct Unit := do
  let temporary ← createTemporary (Path.parentOrHere path)
  tryCatch (fillAndRename temporary path bytes) fun kind => do
    dropTemporary temporary
    throw kind

/-- **Commit**: the output is complete at its path, which is the answer. -/
def commit : WriterAct String := do
  let (w, _) ← get
  match w.backing with
  | .direct _ _ => onFiles synchronize
  | .staged spool => do
    let bytes ← onSpool spool (do let _ ← Spool.seek (.start 0); Spool.readAll)
    onFiles (replace w.path bytes)
  pure w.path

/-- **Discard**: an output of its own is removed, a staged one is forgotten. -/
def discard (w : Writer) : FileAct Unit :=
  match w.backing with
  | .direct _ _ => remove w.path
  | .staged _ => pure ()

end Writer
end RangeSync
