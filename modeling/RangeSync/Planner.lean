import RangeSync.Plan.Json
import RangeSync.Settings.Groups
import RangeSync.World

/-!
# Planners

A planner decides which ranges of a target are reused and which are downloaded, given the paths of
the descriptor and of the seed. It is a fixed plan, or a program that prints one. What a program
prints is decoded leniently, and blanks around it do not count.
-/

namespace RangeSync

open Text

/-- What decides about the ranges. -/
inductive Planner
  /-- This plan, whatever the files are. -/
  | fixed (plan : Plan)
  /-- A program, with arguments that stand in front of the two paths. -/
  | program (name : String) (arguments : List String)
deriving DecidableEq, Repr

namespace Planner

/-- The program that the settings name. Its arguments are separated by blanks; there is no
quoting. -/
def ofSettings (settings : PlannerSettings) : Planner :=
  .program settings.command ((words settings.args.toList).map String.ofList)

/-- What a program prints, as text without blanks around it. -/
def printed (bytes : List UInt8) : String :=
  trimmed (decodeLossy bytes)

/-- The plan that a finished program has printed. -/
def planOf (name : String) (finished : Finished) : Except PlannerFault Plan :=
  if finished.exit.isSuccess then
    (Plan.ofJson (printed finished.stdout)).mapError (.unreadable name ·)
  else .error (.ended name finished.exit (printed finished.stderr))

/-- The entry about a plan; it has the totals, so there is none if they leave their 64 bits. -/
def report? (plan : Plan) : Option Entry := do
  let reused ← plan.reuseTotal?
  let downloaded ← plan.downloadTotal?
  pure ⟨.info, "Range planner finished",
    [("reuse_ranges", decimal plan.reuse.length), ("reuse_bytes", decimal reused.toNat),
      ("download_ranges", decimal plan.download.length),
      ("download_bytes", decimal downloaded.toNat)]⟩

/-- Start a command on the disk of the world. -/
def start (command : Command) : Work Finished := do
  let w ← get
  let (result, programs) := (command.start w.disk).runOn w.programs
  set { w with programs }
  match result with
  | .ok finished => pure finished
  | .error fault => Act.fail (.planner (.unstarted command.program fault))

/-- **The plan** for the target of a descriptor, which is at a path, and a seed at another path. -/
def plan (planner : Planner) (descriptor seed : String) : Work Plan :=
  match planner with
  | .fixed plan => pure plan
  | .program name arguments => do
    let finished ← start ⟨name, arguments ++ [descriptor, seed]⟩
    let plan ← Act.ofExcept (fun fault => .failed (.planner fault)) (planOf name finished)
    if (← get).isVerbose then
      World.note (← Act.orCrash (report? plan))
    pure plan

end Planner
end RangeSync
