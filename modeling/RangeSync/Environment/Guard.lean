import RangeSync.Environment.Basic

/-!
# Changes that are undone

A guard changes one variable and remembers what it held, so that dropping the guard puts the old
value back. What it remembers is *text*: a value that is not UTF-8 is remembered as missing, and
dropping the guard then removes the variable. Guards restore the environment if they are dropped
newest first.
-/

namespace RangeSync

/-- A change to one variable that can be undone. -/
structure Guard where
  name : String
  /-- The text that the variable held before, if it held text. -/
  previous : Option String
deriving DecidableEq, Repr

namespace Guard

/-- Set a variable. A value that holds a zero byte cannot be set. -/
def set? (env : Environment) (name : String) (value : List UInt8) : Option (Guard × Environment) :=
  if value.contains 0 then none else some (⟨name, env.text? name⟩, env.set name value)

/-- Remove a variable. -/
def remove (env : Environment) (name : String) : Guard × Environment :=
  (⟨name, env.text? name⟩, env.unset name)

/-- Undo the change. -/
def drop (g : Guard) (env : Environment) : Environment :=
  match g.previous with
  | some text => env.set g.name (Text.encode text)
  | none => env.unset g.name

end Guard

/-- An environment with its guards, the newest first. -/
structure Guarded where
  env : Environment
  guards : List Guard
deriving DecidableEq, Repr

namespace Guarded

/-- Something done to a guarded environment. -/
inductive Action
  /-- Push a guard that sets the variable. -/
  | set (name : String) (value : List UInt8)
  /-- Push a guard that removes the variable. -/
  | remove (name : String)
  /-- Drop the newest guard. -/
  | dropNewest
  /-- Drop the oldest guard. -/
  | dropOldest
deriving DecidableEq, Repr

/-- Drop every guard, the newest first. -/
def dropAll (g : Guarded) : Environment :=
  g.guards.foldl (fun env guard => guard.drop env) g.env

/-- One action; `none` if the value cannot be set. -/
def act? (g : Guarded) : Action → Option Guarded
  | .set name value =>
    (Guard.set? g.env name value).map fun (guard, env) => ⟨env, guard :: g.guards⟩
  | .remove name =>
    let (guard, env) := Guard.remove g.env name
    some ⟨env, guard :: g.guards⟩
  | .dropNewest =>
    match g.guards with
    | [] => some g
    | guard :: rest => some ⟨guard.drop g.env, rest⟩
  | .dropOldest =>
    match g.guards.getLast? with
    | none => some g
    | some guard => some ⟨guard.drop g.env, g.guards.dropLast⟩

end Guarded
end RangeSync
