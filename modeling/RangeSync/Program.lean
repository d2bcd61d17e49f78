import RangeSync.Act
import RangeSync.Disk.Basic

/-!
# Programs

The library can run other programs. What they do is a function of the command and of the disk; all
that is known of a run is what the program printed and how it ended. `Programs` also keeps the
commands that have been run.
-/

namespace RangeSync

open Text

/-- A program with its arguments. -/
structure Command where
  program : String
  arguments : List String
deriving DecidableEq, Repr

/-- How a program ended. -/
inductive Exit
  /-- It ended itself with a status; zero means that all went well. -/
  | status (code : Nat)
  /-- A signal ended it. -/
  | signal (number : Nat)
deriving DecidableEq, Repr

/-- A run of a program. -/
structure Finished where
  exit : Exit
  stdout : List UInt8
  stderr : List UInt8
deriving DecidableEq, Repr

/-- Why a program does not start. -/
inductive StartFault
  | system (kind : IoKind)
  /-- A zero character cannot be handed to a program. -/
  | zeroCharacter
deriving DecidableEq, Repr

/-- The wording of a fault. -/
def StartFault.message : StartFault → String
  | .system kind => kind.message
  | .zeroCharacter => "nul byte found in provided data"

/-- The programs of a machine, and the commands that have been run, in order. -/
structure Programs where
  run : Command → Disk → Except IoKind Finished
  started : List Command

namespace Command

/-- No part of the command has a zero character. -/
def isPassable (c : Command) : Bool :=
  (c.program :: c.arguments).all (!·.toList.contains '\x00')

/-- Run a command on a disk. -/
def start (c : Command) (disk : Disk) : Act Programs StartFault Finished := do
  if !c.isPassable then throw .zeroCharacter
  let programs ← get
  match programs.run c disk with
  | .error kind => throw (.system kind)
  | .ok finished =>
    set { programs with started := programs.started ++ [c] }
    pure finished

end Command

namespace Exit

/-- All went well. -/
def isSuccess : Exit → Bool
  | .status 0 => true
  | _ => false

/-- The names of the signals, by their numbers from one on. -/
def signals : List String :=
  ["SIGHUP", "SIGINT", "SIGQUIT", "SIGILL", "SIGTRAP", "SIGABRT", "SIGBUS", "SIGFPE", "SIGKILL",
    "SIGUSR1", "SIGSEGV", "SIGUSR2", "SIGPIPE", "SIGALRM", "SIGTERM", "SIGSTKFLT", "SIGCHLD",
    "SIGCONT", "SIGSTOP", "SIGTSTP", "SIGTTIN", "SIGTTOU", "SIGURG", "SIGXCPU", "SIGXFSZ",
    "SIGVTALRM", "SIGPROF", "SIGWINCH", "SIGIO", "SIGPWR", "SIGSYS"]

/-- The name of a signal in brackets, if it has one. -/
def signalName (number : Nat) : String :=
  match number with
  | 0 => ""
  | n + 1 =>
    match signals[n]? with
    | some name => " (" ++ name ++ ")"
    | none => ""

/-- How a program ended, in words. -/
def toText : Exit → String
  | .status code => "exit status: " ++ decimal code
  | .signal number => "signal: " ++ decimal number ++ signalName number

end Exit
end RangeSync
