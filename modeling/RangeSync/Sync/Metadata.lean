import RangeSync.Sync.Fault
import RangeSync.Url.FilePath
import RangeSync.Url.Reader
import RangeSync.World

/-!
# Getting a descriptor

A descriptor is at a URL of the web, at a file URL or at a path. One from the web is downloaded into
a temporary file, so that in every case there is a path that can be handed to a planner, and a URL
that others can be relative to.
-/

namespace RangeSync

open Text Http

/-- A step of bringing a file up to date. -/
abbrev SyncAct (α : Type) := Act World (Stop SyncFault) α

/-- A descriptor in a file. -/
structure Fetched where
  path : String
  /-- Where it comes from: for one from the web, where the redirects led to. -/
  url : Url
  /-- The temporary file that it was downloaded into. -/
  temporary : Option Location
deriving DecidableEq, Repr

namespace Fetched

variable {α : Type}

/-- The descriptor comes from the web. -/
def isRemote (f : Fetched) : Bool :=
  f.temporary.isSome

/-- The folder for temporary files. -/
def temporaryFolder : String := "/tmp"

/-- An operation on files. -/
def onDisk (act : FileAct α) : SyncAct α :=
  act.within (·.disk) (fun disk w => { w with disk }) fun kind => .failed (.files kind)

/-- Write pieces into an open file, one behind the other. -/
def writePieces (file : Location) (position : Nat) : List (List UInt8) → FileAct Unit
  | [] => pure ()
  | piece :: rest => do
    Disk.writeAt file position piece
    writePieces file (position + piece.length) rest

/-- Keep a body in a temporary file. A body that is cut off is not kept. -/
def keep (location : String) (body : Body) : SyncAct Location := do
  let file ← onDisk (Disk.createTemporary temporaryFolder)
  let drop : SyncAct Unit := onDisk (Disk.dropTemporary file)
  tryCatch (onDisk (writePieces file 0 body.pieces)) fun stop => do
    drop
    throw stop
  if body.isBroken then
    drop
    Act.fail (.metadata location .broken)
  pure file

/-- The descriptor at a URL of the web. -/
def remote (client : Client) (location : String) (url : Url) : SyncAct Fetched := do
  let answer ← (client.fetch url none).within (·.net) (fun net w => { w with net })
    fun fault => Stop.failed (.metadata location (.unsent fault))
  if !isSuccess answer.status then
    Act.fail (.metadata location (.refused answer.status))
  let file ← keep location answer.body
  pure ⟨file.toPath, answer.url, some file⟩

/-- The descriptor at a path, which has to be a file. -/
def ofPath (location path : String) : SyncAct Fetched := do
  if path.isEmpty then Act.fail .nowhere
  let absolute := Path.absolute (Location.toPath (← get).disk.cwd) path
  if ← onDisk (Disk.isFile absolute) then pure ⟨absolute, .ofFilePath absolute, none⟩
  else Act.fail (.metadata location .noFile)

/-- The descriptor at a file URL. No path is other than text, so one that is not leads nowhere. -/
def ofFileUrl (location : String) (url : Url) : SyncAct Fetched :=
  match url.toFilePath? with
  | none => Act.fail (.metadata location .elsewhere)
  | some bytes =>
    match decode? bytes with
    | some path => ofPath location path
    | none => Act.fail (.metadata location .noFile)

/-- **The descriptor at a location.** A scheme of a single letter is taken for a disk drive, so the
location is a path then, and so is everything that is no URL. -/
def ofLocation (client : Client) (location : String) : SyncAct Fetched :=
  match Url.read location with
  | .error _ => ofPath location location
  | .ok url =>
    if isWeb url then remote client location url
    else if url.scheme = "file" then ofFileUrl location url
    else if 1 < url.scheme.length then Act.fail (.metadata location (.otherScheme url.scheme))
    else ofPath location location

/-- Remove the temporary file, if there is one. -/
def release (f : Fetched) : SyncAct Unit :=
  match f.temporary with
  | some file => onDisk (Disk.dropTemporary file)
  | none => pure ()

end Fetched
end RangeSync
