import RangeSync.Rebuild.Fetch
import RangeSync.Settings.Groups

/-!
# Putting a file together

A job says what file is to be made, from which seed, after which plan and where to. `Job.run` checks
the plan, copies what the seed has, downloads the rest, compares the digest if one is expected, and
puts the output into its place. Everything happens in the order of the plan, and the first failure
ends the run: an output of its own is removed then, and a seed that was to be replaced has never
been touched.
-/

namespace RangeSync

open Time

/-- What is to be made, and how. -/
structure Job where
  /-- The length of the target. -/
  length : UInt64
  /-- The path of the seed. -/
  seed : String
  url : Url
  plan : Plan
  destination : Destination
  settings : ReconstructionSettings
  /-- Who sends the requests; the reason if nobody can. It counts only if something is to be
  downloaded. -/
  client : Except String Http.Client
  /-- The digest that the output should have, if it is to be compared. -/
  expected : Option String
  /-- When the target was modified, if that is known. -/
  mtime : Option Instant

/-- What a job has done. -/
structure Summary where
  /-- Where the output is. -/
  path : String
  reused : UInt64
  downloaded : UInt64
  requests : Nat
  /-- The digest was compared, and it was the expected one. -/
  isVerified : Bool
deriving DecidableEq, Repr

/-- How many bytes are copied at a time. -/
def copyPortion : Nat := 8192

/-- Copy up to `left` bytes of an open file to the output, from `position` on, and answer how many
there were. `copied` bytes are there already. -/
def copyBytes (file : Location) (position left copied : Nat) : BenchAct Nat :=
  if left = 0 then pure copied
  else do
    match ← Bench.onWorld (World.onDisk (Disk.readAt file position (min left copyPortion))) with
    | [] => pure copied
    | b :: rest =>
      Bench.onWriter (Writer.write (b :: rest))
      let count := rest.length + 1
      copyBytes file (position + count) (left - count) (copied + count)
termination_by left

namespace Job

/-- Copy a range of the seed, which is open, to its place in the output. A position that no file
has is refused even if nothing is to be copied. -/
def copyRange (job : Job) (file : Location) (range : ReuseRange) : BenchAct Nat := do
  if Disk.fileLimit < range.source.toNat then Act.fail (.files .invalidInput)
  Bench.onWriter (Writer.seekTo range.destination.toNat)
  let copied ← copyBytes file range.source.toNat range.length.toNat 0
  if copied < range.length.toNat then Act.fail (.plan (.readsOutside range job.seed))
  else pure copied

/-- Copy ranges of the seed, one after the other; `total` bytes are there already. -/
def copyRanges (job : Job) (file : Location) (total : UInt64) :
    List ReuseRange → BenchAct UInt64
  | [] => pure total
  | range :: rest => do
    let copied ← job.copyRange file range
    let total ← Act.orCrash (word? (total.toNat + copied))
    job.copyRanges file total rest

/-- **Copy everything that the seed has.** The seed is opened only if it is needed. -/
def copyReuse (job : Job) : BenchAct UInt64 :=
  if job.plan.reuse.isEmpty then pure 0
  else do
    let file ← Bench.onWorld (World.onDisk (Disk.openForReading job.seed))
    job.copyRanges file 0 job.plan.reuse

/-- Download ranges, one after the other; `total` bytes are there already. -/
def downloadRanges (job : Job) (origin : Origin) (total : UInt64) :
    List DownloadRange → BenchAct UInt64
  | [] => pure total
  | range :: rest => do
    Bench.onWriter (Writer.seekTo range.first.toNat)
    let received ← origin.fetch range job.length
    let total ← Act.orCrash (word? (total.toNat + received.toNat))
    job.downloadRanges origin total rest

/-- **Download everything that the seed has not.** -/
def downloadAll (job : Job) (origin : Option Origin) : BenchAct UInt64 :=
  match origin with
  | none => pure 0
  | some origin => do
    let announced ← Act.orCrash job.plan.downloadTotal?
    Bench.onWorld (World.announce announced)
    let total ← job.downloadRanges origin 0 job.plan.download
    Bench.onWorld World.assertComplete
    pure total

/-- Where the ranges come from; nowhere if none is missing. -/
def origin? (job : Job) : Except String (Option Origin) :=
  if job.plan.download.isEmpty then .ok none
  else
    job.client.map fun client => some ⟨client, job.url, job.settings.downloadChunkSize.count⟩

/-- Put an entry into the log if an operation on files fails, and go on. -/
def attempt (message : String) (describe : IoKind → String) (act : FileAct Unit) : Work Unit := do
  let w ← get
  let (result, disk) := act.runOn w.disk
  set { w with disk, log := w.log ++ reportFailure .warning message describe result }

/-- What happens to an output with the wrong digest: the policy decides. -/
def reject (job : Job) : BenchAct Unit := do
  let (writer, _) ← get
  match job.settings.integrityPolicy with
  | .strict =>
    Bench.onWorld (World.note ⟨.warning, "Discarding output that failed verification",
      [("path", writer.path)]⟩)
    Bench.onWorld (attempt "Failed to remove output that failed verification"
      (fun kind => "IoError(" ++ kind.describe ++ ")") writer.discard)
  | .advisory =>
    let path ← Bench.onWriter Writer.commit
    Bench.onWorld (World.note ⟨.warning, "Keeping output that failed verification",
      [("path", path)]⟩)

/-- Compare the digest of the output with the expected one. -/
def compare (job : Job) (expected : String) : BenchAct Unit := do
  let actual ← Bench.onWriter Writer.digest
  if actual ≠ expected then
    job.reject
    Act.fail (.digest expected actual)

/-- **Finish the output**: compare the digest, put the output into its place and date it. -/
def finish (job : Job) : BenchAct String := do
  match job.expected with
  | none => pure ()
  | some expected => job.compare expected
  let path ← Bench.onWriter Writer.commit
  match job.mtime, job.settings.preserveMtime with
  | some time, true =>
    Bench.onWorld (attempt "Failed to set modification time on output" IoKind.describe
      (Disk.setModified path time))
  | _, _ => pure ()
  pure path

/-- Run an action with an output, and answer how it went and what became of the output. -/
def withWriter {α : Type} (writer : Writer) (act : BenchAct α) :
    Work (Except (Stop RebuildFault) α × Writer) := do
  let (result, writer, world) := act.runOn (writer, ← get)
  set world
  pure (result, writer)

/-- Give up an output that could not be completed. Whether it can be removed changes nothing. -/
def abandon {α : Type} (writer : Writer) (fault : RebuildFault) : Work α := do
  let w ← get
  set { w with disk := (writer.discard.runOn w.disk).2 }
  Act.fail fault

/-- The value of an action with an output, which is given up if the action fails. -/
def orAbandon {α : Type} (writer : Writer) (act : BenchAct α) : Work (α × Writer) := do
  match ← withWriter writer act with
  | (.ok value, writer) => pure (value, writer)
  | (.error (.failed fault), writer) => abandon writer fault
  | (.error .crashed, _) => Act.crash

/-- Copying is work of its own: if a check fails in it, the run fails and the output stays as it
is. -/
def shielded (act : Work (UInt64 × Writer)) : Work (UInt64 × Writer) :=
  tryCatch act fun
    | .crashed => Act.fail (.files .other)
    | stop => throw stop

/-- **Run a job.** -/
def run (job : Job) : Work Summary := do
  Act.ofExcept (fun fault => .failed (.plan fault)) (job.plan.check job.length)
  let origin ← Act.ofExcept (fun reason => .failed (.client reason)) job.origin?
  let writer ← World.onDisk (Writer.openAt job.destination job.seed job.length
    job.settings.stagingMemoryLimit.count.toNat)
  let (reused, writer) ← shielded (orAbandon writer job.copyReuse)
  let (downloaded, writer) ← orAbandon writer (job.downloadAll origin)
  match ← withWriter writer job.finish with
  | (.error stop, _) => throw stop
  | (.ok path, _) =>
    pure ⟨path, reused, downloaded, job.plan.download.length, job.expected.isSome⟩

end Job
end RangeSync
