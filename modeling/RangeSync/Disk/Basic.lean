import RangeSync.Act
import RangeSync.Disk.Walk
import RangeSync.Text.Blank
import RangeSync.Text.Cut

/-!
# Disks

A disk is a file tree that is being worked on, with everything an account of that work needs: the
trees it went through, how long the bytes were that were collected outside of the tree, how many
operations were tried, and which of them the system refuses. Every operation can be refused, so a
statement about failures ranges over all disks.

Operations name files by their paths, except for reading and writing an open file, which is named
by its place: it stays the same file whatever happens to the links that led to it.
-/

namespace RangeSync

open Text Time

/-- A file tree that is being worked on. -/
structure Disk where
  tree : Tree
  /-- The working directory. -/
  cwd : Location
  /-- The trees before the present one, the latest first. -/
  past : List Tree
  /-- How many operations have been tried. -/
  tried : Nat
  /-- The reason for which the system refuses the operation of a number, if it does. -/
  refuses : Nat → Option IoKind
  /-- How many bytes a spool had after each change of its bytes, the latest first. -/
  spooled : List Nat

/-- A disk that refuses nothing. -/
def Disk.ofTree (cwd : Location) (tree : Tree) : Disk :=
  ⟨tree, cwd, [], 0, fun _ => none, []⟩

/-- An operation on files. -/
abbrev FileAct (α : Type) := Act Disk IoKind α

namespace Disk

/-- The permission bits of a file that is created without asking for others. -/
def defaultMode : Nat := 0o644

/-- The permission bits of a temporary file. -/
def privateMode : Nat := 0o600

/-- The permission bits of a folder. -/
def folderMode : Nat := 0o755

/-- The greatest length and position of a file. -/
def fileLimit : Nat := 0x7FFFFFFFFFFFFFFF

/-- Try an operation: it fails if the system refuses it. -/
def attempt : FileAct Unit := do
  let d ← get
  set { d with tried := d.tried + 1 }
  match d.refuses d.tried with
  | some kind => throw kind
  | none => pure ()

/-- Replace the tree; the old one goes into the past. -/
def change (f : Tree → Tree) : FileAct Unit :=
  modify fun d => { d with tree := f d.tree, past := d.tree :: d.past }

/-- Where a path leads. -/
def spot (followLast : Bool) (path : String) : FileAct Spot := do
  let d ← get
  match d.tree.walk d.cwd followLast path with
  | .ok spot => pure spot
  | .error kind => throw kind

/-- The node that a path leads to. -/
def node (followLast : Bool) (path : String) : FileAct (Location × Node) := do
  match ← spot followLast path with
  | .taken place node => pure (place, node)
  | .vacant _ _ => throw .notFound

/-! ### Looking -/

/-- A regular file is at the path. -/
def isFile (path : String) : FileAct Bool := do
  let d ← get
  match d.tree.walk d.cwd true path with
  | .ok (.taken _ (.file _ _ _)) => pure true
  | _ => pure false

/-- The place that a path leads to, if something is there. -/
def canonical? (path : String) : FileAct (Option Location) := do
  let d ← get
  match d.tree.walk d.cwd true path with
  | .ok (.taken place _) => pure (some place)
  | _ => pure none

/-- The permission bits of what is at a path, if something is there. -/
def mode? (path : String) : FileAct (Option Nat) := do
  let d ← get
  match d.tree.walk d.cwd true path with
  | .ok (.taken _ (.file _ mode _)) => pure (some mode)
  | .ok (.taken _ _) => pure (some folderMode)
  | _ => pure none

/-- The place of a file or folder that is opened for reading. -/
def openForReading (path : String) : FileAct Location := do
  attempt
  return (← node true path).1

/-- At most `count` bytes of an open file from a position on. -/
def readAt (place : Location) (position count : Nat) : FileAct (List UInt8) := do
  attempt
  match (← get).tree.get? place with
  | some (.file content _ _) => pure ((content.drop position).take count)
  | some .folder => throw .isADirectory
  | _ => pure []

/-- All bytes of the file at a path. -/
def contents (path : String) : FileAct (List UInt8) := do
  let place ← openForReading path
  attempt
  match (← get).tree.get? place with
  | some (.file content _ _) => pure content
  | some .folder => throw .isADirectory
  | _ => pure []

/-! ### Writing -/

/-- The bytes with others laid over them from a position on; a gap before the position is filled
with zeros. -/
def overlay (content : List UInt8) (position : Nat) (data : List UInt8) : List UInt8 :=
  if data.isEmpty then content
  else
    content.take position ++ List.replicate (position - content.length) 0 ++ data ++
      content.drop (position + data.length)

/-- The bytes cut or filled up with zeros to a length. -/
def resized (content : List UInt8) (length : Nat) : List UInt8 :=
  content.take length ++ List.replicate (length - content.length) 0

/-- The tree with the bytes of an open file replaced. -/
def edited (t : Tree) (place : Location) (f : List UInt8 → List UInt8) : Tree :=
  match t.get? place with
  | some (.file content mode _) => t.put place (.file (f content) mode none)
  | _ => t

/-- Where a path leads that a file may be created at. A slash at the end asks for a folder, so no
file can be there. -/
def spotToCreate (path : String) : FileAct Spot := do
  if Path.endsInSlash path then
    let bare := String.ofList (dropEndWhile (· == '/') path.toList)
    let _ ← spot false (if bare.isEmpty then "/" else bare)
    throw .isADirectory
  else spot true path

/-- Open a file for writing, empty: a file that is there loses its bytes, one that is missing is
created. -/
def openTruncated (path : String) : FileAct Location := do
  attempt
  match ← spotToCreate path with
  | .taken place (.file _ mode _) =>
    change (·.put place (.file [] mode none))
    pure place
  | .taken _ _ => throw .isADirectory
  | .vacant folder name =>
    change (·.put (folder ++ [name]) (.file [] defaultMode none))
    pure (folder ++ [name])

/-- Make sure that a file is there that can be added to: one that is missing is created. -/
def ensureFile (path : String) : FileAct Unit := do
  attempt
  match ← spotToCreate path with
  | .taken _ (.file _ _ _) => pure ()
  | .taken _ _ => throw .isADirectory
  | .vacant folder name => change (·.put (folder ++ [name]) (.file [] defaultMode none))

/-- Write into an open file. -/
def writeAt (place : Location) (position : Nat) (data : List UInt8) : FileAct Unit := do
  attempt
  change (edited · place (overlay · position data))

/-- Cut or extend an open file. -/
def setLength (place : Location) (length : Nat) : FileAct Unit := do
  attempt
  if fileLimit < length then throw .invalidInput
  else change (edited · place (resized · length))

/-- Make everything that was written to an open file durable. -/
def synchronize : FileAct Unit := attempt

/-! ### Entries of folders -/

/-- Create a temporary file in a folder. -/
def createTemporary (folder : String) : FileAct Location := do
  attempt
  match ← node true folder with
  | (place, .folder) =>
    let file := place ++ [(← get).tree.freshName place]
    change (·.put file (.file [] privateMode none))
    pure file
  | _ => throw .notADirectory

/-- Remove the entry of a file, as far as it goes. Nobody is told if the system keeps the file, and
it is taken to let it go: the file is our own, in a folder in which it has just been created. -/
def dropTemporary (place : Location) : FileAct Unit :=
  change (·.erase place)

/-- Set the permission bits of an open file. -/
def setMode (place : Location) (mode : Nat) : FileAct Unit := do
  attempt
  change fun t =>
    match t.get? place with
    | some (.file content _ modified) => t.put place (.file content mode modified)
    | _ => t

/-- Where a file can be moved to. The folder of the target has to be there; the target is neither
that folder nor the one above, and no slash follows it, since that would ask for a folder. -/
def spotToReplace (path : String) : FileAct Spot := do
  let bare := dropEndWhile (· == '/') path.toList
  let (above, last) := match cutAtLast? (· == '/') bare with
    | some (before, _, name) => (String.ofList before ++ "/.", name)
    | none => (".", bare)
  if last == ['.'] || last == ['.', '.'] then
    let _ ← spot true above
    throw .resourceBusy
  else if !path.isEmpty && bare.isEmpty then throw .resourceBusy
  else
    let target ← spot false (String.ofList bare)
    if Path.endsInSlash path then throw .notADirectory
    pure target

/-- Move a file to a path, in one step. Whatever file or link is there gives way; a link is not
followed. -/
def rename (place : Location) (path : String) : FileAct Unit := do
  attempt
  let target ← match ← spotToReplace path with
    | .taken _ .folder => throw .isADirectory
    | .taken target _ => pure target
    | .vacant folder name => pure (folder ++ [name])
  change fun t =>
    match t.get? place with
    | some node => (t.erase place).put target node
    | none => t

/-- Remove the file or link at a path. A link is not followed. -/
def remove (path : String) : FileAct Unit := do
  attempt
  match ← node false path with
  | (_, .folder) => throw .isADirectory
  | (place, _) => change (·.erase place)

/-- Set the modification time of the file at a path. -/
def setModified (path : String) (time : Instant) : FileAct Unit := do
  attempt
  match ← node true path with
  | (place, .file content mode _) => change (·.put place (.file content mode (some time)))
  | _ => throw .isADirectory

/-- The modification time of the file at a path, if it has been set. -/
def modified? (t : Tree) (cwd : Location) (path : String) : Option Instant :=
  match t.walk cwd true path with
  | .ok (.taken _ (.file _ _ modified)) => modified
  | _ => none

/-- Create a folder with all folders above it. -/
def createFolders (names : List String) : FileAct Unit :=
  go [] names
where
  /-- Create the folders below one that is there. -/
  go (here : Location) : List String → FileAct Unit
    | [] => pure ()
    | name :: rest => do
      let path := Location.toPath (here ++ [name])
      match (← get).tree.walk (← get).cwd true path with
      | .ok (.taken place .folder) => go place rest
      | _ =>
        match ← spot false path with
        | .taken _ _ => throw .alreadyExists
        | .vacant folder last =>
          attempt
          change (·.put (folder ++ [last]) .folder)
          go (folder ++ [last]) rest

end Disk
end RangeSync
