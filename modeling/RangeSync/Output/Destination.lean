import RangeSync.Disk.Basic

/-!
# Where an output goes

An output is written into a file of its own, or it takes the place of the seed. The second is meant
when no output path is given, and also when the output path leads to the seed itself, through
whatever links: opening that file for writing would empty the seed before it is read.
-/

namespace RangeSync

/-- Where an output goes. -/
inductive Destination
  /-- Into the file at a path. -/
  | file (path : String)
  /-- In the place of the seed. -/
  | replaceSeed
deriving DecidableEq, Repr

namespace Destination

/-- **The destination** that a seed and an output path mean: the seed itself if the two paths lead
to the same place, and a file of its own if they do not or if one of them leads nowhere. -/
def forSeed (seed : String) (output : Option String) : FileAct Destination :=
  match output with
  | none => pure .replaceSeed
  | some path => do
    let seedPlace ← Disk.canonical? seed
    let outputPlace ← Disk.canonical? path
    pure (if seedPlace.isSome ∧ seedPlace = outputPlace then .replaceSeed else .file path)

end Destination
end RangeSync
