import RangeSync.CommandLine.Arguments
import RangeSync.LogTarget
import RangeSync.Sync.Task

/-!
# One run of the program

The program reads its arguments and settings, makes sure that there is a log file if one is asked
for, and brings a file up to date. What it prints and the status that it ends with are values, so
that the outer layer has nothing to decide.
-/

namespace RangeSync

open Text

/-- What a run of the program shows. -/
inductive Report
  /-- The arguments say nothing that could be done, or ask about the program. -/
  | notice (fault : ArgumentFault)
  /-- The run came to its end. -/
  | ended (status : Nat) (stderr : String)
deriving DecidableEq, Repr

namespace Arguments

/-- The settings of an environment, with the options on top. -/
def settings (a : Arguments) (env : Environment) : Settings × List Entry :=
  let (s, log) := Settings.default.overridden env
  let reconstruction :=
    if a.isStrict then { s.reconstruction with integrityPolicy := .strict } else s.reconstruction
  let planner := { s.planner with command := a.planner.getD s.planner.command }
  ({ s with reconstruction, planner }, log)

/-- The task under some settings. -/
def task (a : Arguments) (settings : Settings) : SyncTask where
  location := a.location
  seed := a.seed
  output := a.output
  settings
  planner := .ofSettings settings.planner

/-- Who listens to the progress: the console, or else the log in steps of ten percent. -/
def sink (a : Arguments) : ProgressSink :=
  if a.isQuiet then .stepped (.every 10) else .console .fresh

end Arguments

/-- Make sure that a log file is there and can be written. A path that ends above itself means a
file of a fixed name in that folder. -/
def LogTarget.prepare (target : LogTarget) : FileAct Unit :=
  match target.file with
  | none => pure ()
  | some path => do
    let path := if Path.hasName path then path else Path.join path "zsync.log"
    Disk.createFolders (Path.names path).dropLast
    Disk.ensureFile path

namespace Invocation

/-- The line about a run that went well. -/
def summaryLine (o : Outcome) : String :=
  o.summary.path ++ ": " ++ decimal o.length.toNat ++ " bytes, " ++
    decimal o.summary.reused.toNat ++ " reused, " ++ decimal o.summary.downloaded.toNat ++
    " downloaded in " ++ decimal o.summary.requests ++ " requests, SHA-1 " ++ o.digest ++
    " verified\n"

/-- The line about a run that failed. -/
def failureLine (location : String) (fault : SyncFault) : String :=
  "Error: failed to synchronize from " ++ location ++ ": " ++ fault.chain ++ "\n"

/-- What was printed about the progress. -/
def printedProgress (w : World) : String :=
  match w.progress.map Tracker.sink with
  | some (.console state) => state.printed
  | _ => ""

/-- The status of a run that is ended by a failed check. -/
def crashStatus : Nat := 101

/-- The status and the last line of a run. -/
def verdict (location : String) : Except (Stop SyncFault) Outcome → Nat × String
  | .ok outcome => (0, summaryLine outcome)
  | .error (.failed fault) => (1, failureLine location fault)
  | .error .crashed => (crashStatus, "")

/-- Do what the arguments say. If the log file cannot be made, the log goes to the console. -/
def perform (a : Arguments) (env : Environment) (home : String) (w : World) : Report × World :=
  let (settings, log) := a.settings env
  let target := LogTarget.ofSettings home w.disk.cwd.toPath productVersion settings.log
  let disk := (target.prepare.runOn w.disk).2
  let progress := some (Tracker.fresh "" a.sink)
  let (result, w) := (a.task settings).run.runOn { w with disk, progress, log := w.log ++ log }
  let (status, line) := verdict a.location result
  (.ended status (printedProgress w ++ line), w)

/-- **A run of the program** with arguments, in an environment and for a user with a home
directory. -/
def run (arguments : List String) (env : Environment) (home : String) (w : World) :
    Report × World :=
  match Arguments.read arguments with
  | .error fault => (.notice fault, w)
  | .ok a => perform a env home w

end Invocation

namespace Report

/-- How the program is used. -/
def usage : String := "Usage: " ++ productTitle ++
  " [--strict] [--planner PLANNER] [--no-progress] METADATA_URL SEED_FILE [OUTPUT_FILE]\n"

/-- The status that the program ends with. -/
def status : Report → Nat
  | .notice fault => if fault.isMistake then 1 else 0
  | .ended status _ => status

/-- What goes to the standard output. -/
def stdout : Report → String
  | .notice .version => productTitle ++ " " ++ productVersion ++ "\n"
  | .notice .help => usage
  | _ => ""

/-- What goes to the standard error output. -/
def stderr : Report → String
  | .notice fault => if fault.isMistake then usage else ""
  | .ended _ text => text

/-- The run only showed how the program is used. -/
def isUsage : Report → Bool
  | .notice fault => fault != .version
  | .ended _ _ => false

end Report
end RangeSync
