import RangeSync.CommandLine.Invocation

/-!
# The program

The outer layer: it brings the files that the arguments name onto a disk, runs the program on it,
and puts the changes back. From here no server can be reached and no other program be started;
what the planner prints is taken from the standard input instead.
-/

open RangeSync

namespace RangeSync.Main

/-- The variables that the program looks at. -/
def environment : IO Environment := do
  let found ← Settings.variableNames.mapM fun name => do
    pure ((← IO.getEnv name).map fun value => (name, Text.encode value))
  pure ⟨found.filterMap id⟩

/-- The place of a path, with its names taken as they are written. -/
def placeOf (cwd path : String) : Location :=
  (Path.names (Path.absolute cwd path)).foldl
    (fun here name => if name = ".." then here.dropLast else here ++ [name]) []

/-- The paths of the files that a run can touch. -/
def paths (a : Arguments) (log : Option String) : List String :=
  let ofUrl := (Url.read a.location).toOption.bind fun url =>
    if url.scheme = "file" then url.toFilePath?.bind Text.decode? else none
  [a.location, a.seed] ++ a.output.toList ++ log.toList ++ ofUrl.toList

/-- The tree with all folders above a place. -/
def withFolders (t : Tree) (place : Location) : Tree :=
  (List.range place.length).foldl (fun t count => ensure t (place.take count)) t
where
  /-- The tree with a folder at a place where nothing is. -/
  ensure (t : Tree) (place : Location) : Tree :=
    if (t.get? place).isNone then t.put place .folder else t

/-- The tree with the file of a path, if there is one. -/
def load (cwd : String) (t : Tree) (path : String) : IO Tree := do
  let place := placeOf cwd path
  try
    let content ← IO.FS.readBinFile place.toPath
    pure ((withFolders t place).put place (.file content.toList Disk.defaultMode none))
  catch _ => pure (withFolders t place)

/-- Put a file into its place, in one step. -/
def store (place : Location) (content : List UInt8) : IO Unit := do
  let path := place.toPath
  IO.FS.writeBinFile (path ++ ".part") ⟨content.toArray⟩
  IO.FS.rename (path ++ ".part") path

/-- Put the files that have changed back, and remove those that are gone. -/
def save (before after : Tree) : IO Unit := do
  for (place, node) in after.nodes do
    match node with
    | .file content _ _ => if before.bytes? place ≠ some content then store place content
    | _ => pure ()
  for (place, _) in before.nodes do
    if (after.get? place).isNone then IO.FS.removeFile place.toPath

/-- All bytes that are still to come. -/
partial def rest (input : IO.FS.Stream) (read : ByteArray) : IO ByteArray := do
  let piece ← input.read 65536
  if piece.isEmpty then pure read else rest input (read ++ piece)

/-- The disk and the programs of a run. The only program prints what comes from the standard
input. -/
def world (cwd : String) (tree : Tree) (plan : List UInt8) : World where
  disk := .ofTree (placeOf "/" cwd) tree
  net := ⟨.unreachable, []⟩
  programs := ⟨fun _ _ => .ok ⟨.status 0, plan, []⟩, []⟩
  progress := none
  log := []
  isVerbose := false

/-- Run the program, and answer its report. -/
def run (args : List String) : IO Report := do
  match Arguments.read args with
  | .error fault => pure (.notice fault)
  | .ok a =>
    let env ← environment
    let home := (← IO.getEnv "HOME").getD "/"
    let cwd := (← IO.currentDir).toString
    let target := LogTarget.ofSettings home cwd productVersion (a.settings env).1.log
    let tree ← (paths a target.file).foldlM (load cwd) (withFolders ⟨[]⟩ (placeOf "/" cwd ++ [""]))
    let plan ← rest (← IO.getStdin) .empty
    let (report, after) := Invocation.perform a env home (world cwd tree plan.toList)
    save tree after.disk.tree
    pure report

end RangeSync.Main

/-- Run the program and show its report. -/
def main (args : List String) : IO UInt32 := do
  let report ← RangeSync.Main.run args
  (← IO.getStdout).putStr report.stdout
  (← IO.getStderr).putStr report.stderr
  pure (UInt32.ofNat report.status)
