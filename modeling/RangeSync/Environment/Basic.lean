import RangeSync.Text.Utf8

/-!
# Environments

An environment gives byte strings to names. Settings are text, so a value that is not UTF-8 counts
as missing when a setting is read. `Guarded` is an environment with the changes that are waiting to
be undone: each change keeps the text that it replaced, and undoing it puts that text back.
-/

namespace RangeSync

/-- The variables of a process: names with byte strings. -/
structure Environment where
  /-- The variables, the latest first; of two with one name the first counts. -/
  bindings : List (String × List UInt8)
deriving DecidableEq, Repr

namespace Environment

/-- No variables. -/
def empty : Environment := ⟨[]⟩

/-- The bytes of a variable. -/
def get? (env : Environment) (name : String) : Option (List UInt8) :=
  env.bindings.lookup name

/-- The text of a variable; a value that is not UTF-8 has none. -/
def text? (env : Environment) (name : String) : Option String :=
  (env.get? name).bind Text.decode?

/-- The environment without a variable. -/
def unset (env : Environment) (name : String) : Environment :=
  ⟨env.bindings.filter (·.1 != name)⟩

/-- The environment with a variable. -/
def set (env : Environment) (name : String) (value : List UInt8) : Environment :=
  ⟨(name, value) :: (env.unset name).bindings⟩

end Environment
end RangeSync
