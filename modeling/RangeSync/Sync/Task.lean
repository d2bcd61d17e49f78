import RangeSync.Descriptor.Location
import RangeSync.Descriptor.Reader
import RangeSync.Output.Integrity
import RangeSync.Planner
import RangeSync.Rebuild.Job
import RangeSync.Sync.Metadata

/-!
# Bringing a file up to date

A task names a descriptor and a seed. It gets the descriptor, asks the planner for a plan, puts the
file together and compares its digest. Under the strict policy the digest is compared before the
output is put into its place, under the advisory policy afterwards; either way a wrong digest is a
failure. Whoever listens to the progress hears of the file under its name.
-/

namespace RangeSync

open Text Time

/-- A file that is to be brought up to date. -/
structure SyncTask where
  /-- Where the descriptor is. -/
  location : String
  seed : String
  /-- Where the result goes; missing if it replaces the seed. -/
  output : Option String
  settings : Settings
  planner : Planner

/-- What a task has achieved. -/
structure Outcome where
  /-- The length of the file. -/
  length : UInt64
  /-- Where the missing ranges came from. -/
  url : Url
  digest : String
  summary : Summary
deriving DecidableEq, Repr

/-- What a descriptor says that a task needs. -/
structure Order where
  length : UInt64
  digest : String
  url : Url
  /-- The name of the file, if it has one. -/
  name : Option String
  mtime : Option Instant
deriving DecidableEq, Repr

namespace Order

/-- What a descriptor from a URL says, and an entry if its date cannot be read. The date is the
only part that may be wrong. -/
def ofDescriptor (source : Url) (d : Descriptor) :
    Except DescriptorError (Order × List Entry) := do
  let length ← d.length
  let digest ← d.digest
  let url ← Descriptor.resolve source.toText (← d.url)
  let log := reportFailure .warning "Ignoring unparsable MTime in metadata" describe d.mtime
  pure (⟨length, digest, url, d.filename?, d.mtime.toOption.join⟩, log)
where
  /-- An error of a date with the names of its parts. -/
  describe : DescriptorError → String
    | .invalidMtime text => "InvalidMTime(" ++ quoted text ++ ")"
    | error => error.message

/-- The last segment of the path of a URL; an opaque path has none. -/
def lastSegment? (url : Url) : Option String :=
  match url.path.toList with
  | '/' :: rest => (fields '/' rest).getLast?.map String.ofList
  | _ => none

/-- What the download is called: after the file, else after its URL, else after the location of the
descriptor. -/
def item (order : Order) (location : String) : String :=
  (order.name.or (lastSegment? order.url)).getD location

end Order

namespace SyncTask

/-- A step of putting a file together. -/
def rebuild {α : Type} (act : Work α) : SyncAct α :=
  act.within id (fun w _ => w) (Stop.map .rebuild)

/-- Read the descriptor and note what is wrong with its date. -/
def order (fetched : Fetched) : Work Order := do
  let bytes ← World.onDisk (Disk.contents fetched.path)
  let (d, _) ← Act.ofExcept (fun error => .failed (.descriptor error)) (Descriptor.read bytes)
  let (order, log) ← Act.ofExcept (fun error => .failed (.descriptor error))
    (Order.ofDescriptor fetched.url d)
  modify fun w => { w with log := w.log ++ log }
  pure order

/-- The job that puts the file together. Its digest is compared before it is put into its place
only under the strict policy. -/
def job (task : SyncTask) (client : Http.Client) (order : Order) (plan : Plan)
    (destination : Destination) : Job where
  length := order.length
  seed := task.seed
  url := order.url
  plan
  destination
  settings := task.settings.reconstruction
  client := .ok client
  expected :=
    match task.settings.reconstruction.integrityPolicy with
    | .strict => some order.digest
    | .advisory => none
  mtime := order.mtime

/-- Compare the digest of a file that is in its place. -/
def confirm (path expected : String) : SyncAct Unit := do
  let actual ← rebuild (World.onDisk (Integrity.digestOf path))
  if actual ≠ expected then
    World.note ⟨.warning, "Output kept despite SHA-1 mismatch",
      [("output", path), ("expected", expected), ("actual", actual)]⟩
    Act.fail (.rebuild (.digest expected actual))

/-- What is done with a descriptor. -/
def runWith (task : SyncTask) (client : Http.Client) (fetched : Fetched) : SyncAct Outcome := do
  let order ← rebuild (order fetched)
  let plan ← rebuild (task.planner.plan fetched.path task.seed)
  let destination ← Fetched.onDisk (Destination.forSeed task.seed task.output)
  modify fun w =>
    { w with progress := w.progress.map fun t => .fresh (order.item task.location) t.sink }
  let summary ← rebuild (task.job client order plan destination).run
  if !summary.isVerified then confirm summary.path order.digest
  pure ⟨order.length, order.url, order.digest, summary⟩

/-- **Run a task.** A descriptor that was downloaded is removed in the end, however the run goes. -/
def run (task : SyncTask) : SyncAct Outcome := do
  let client ← Act.ofExcept (fun reason => .failed (.rebuild (.client reason)))
    (Http.Client.named task.settings.client.userAgent)
  let fetched ← Fetched.ofLocation client task.location
  let outcome ← tryCatch (task.runWith client fetched) fun stop => do
    fetched.release
    throw stop
  fetched.release
  pure outcome

end SyncTask
end RangeSync
