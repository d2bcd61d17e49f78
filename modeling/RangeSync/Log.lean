import RangeSync.Text.Quoted

/-!
# Log entries

What the library has to say beside its results is a list of entries, each with a level, a message
and named fields. Every operation returns its entries, and the outer layer shows them or not.

The second half holds the reporters: a failed or missing value passes through unchanged and leaves
an entry behind.
-/

namespace RangeSync

/-- How serious an entry is. -/
inductive Level
  | debug | info | warning | error
deriving DecidableEq, Repr

/-- One entry of the log. -/
structure Entry where
  level : Level
  message : String
  /-- Values that belong to the message, by name. -/
  fields : List (String × String) := []
deriving DecidableEq, Repr

namespace Level

/-- The name of the level in a log. -/
def name : Level → String
  | .debug => "DEBUG"
  | .info => "INFO"
  | .warning => "WARN"
  | .error => "ERROR"

/-- Warnings and errors. -/
def isSerious : Level → Bool
  | .warning | .error => true
  | _ => false

end Level

/-- What a failure leaves in the log: the message and the cause. -/
def failureEntry (level : Level) (message : String) (cause : String) : Entry :=
  ⟨level, message ++ ", error: " ++ cause, []⟩

/-- The entries that a result leaves behind: one if it is a failure. -/
def reportFailure {α ε : Type} (level : Level) (message : String) (describe : ε → String)
    (result : Except ε α) : List Entry :=
  match result with
  | .ok _ => []
  | .error cause => [failureEntry level message (describe cause)]

/-- The entries that an optional value leaves behind: one if it is missing. -/
def reportMissing {α : Type} (level : Level) (message : String) (value : Option α) : List Entry :=
  match value with
  | some _ => []
  | none => [⟨level, message, []⟩]

end RangeSync
