import RangeSync.Path
import RangeSync.Settings.Groups

/-!
# Where the log goes

The log goes to the console unless the settings name a file. A file holds one JSON object per line
and the console holds text, unless the settings name a format.
-/

namespace RangeSync

open Text

/-- The place, the format and the program version of a log. -/
structure LogTarget where
  /-- The absolute path of the log file; `none` for the console. -/
  file : Option String
  useJson : Bool
  version : String
deriving DecidableEq, Repr

/-- The target that the settings ask for. A destination of blanks only is none. -/
def LogTarget.ofSettings (home cwd version : String) (settings : LogSettings) : LogTarget :=
  let file := (settings.dest.map trimmed).bind fun dest =>
    if dest.isEmpty then none else some (Path.normalized home cwd dest)
  let useJson := match settings.format with
    | some format => String.ofList (lowered (trim format.toList)) == "json"
    | none => file.isSome
  ⟨file, useJson, version⟩

end RangeSync
