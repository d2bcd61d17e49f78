import RangeSync.Text.Blank
import RangeSync.Text.Quoted

/-!
# What to do with an output that failed verification

Under the advisory policy an output whose digest is wrong is kept and the run still fails; under
the strict policy it is thrown away.
-/

namespace RangeSync

open Text

/-- What happens to an output whose digest is wrong. -/
inductive IntegrityPolicy
  /-- It is kept. -/
  | advisory
  /-- It is discarded. -/
  | strict
deriving DecidableEq, Repr

namespace IntegrityPolicy

/-- The name of the policy in settings. -/
def name : IntegrityPolicy → String
  | .advisory => "advisory"
  | .strict => "strict"

/-- The name of the policy in log lines. -/
def label : IntegrityPolicy → String
  | .advisory => "Advisory"
  | .strict => "Strict"

/-- The word that names a policy: blanks around it dropped, letters in lower case. -/
def word (text : String) : String :=
  String.ofList (lowered (trim text.toList))

/-- The policy that a text names. Each policy also goes by what it does. -/
def read? (text : String) : Option IntegrityPolicy :=
  match word text with
  | "advisory" => some .advisory
  | "keep" => some .advisory
  | "strict" => some .strict
  | "discard" => some .strict
  | _ => none

/-- What is said of a text that names no policy. -/
def rejection (text : String) : String :=
  "unknown integrity policy " ++ quoted (word text)

end IntegrityPolicy
end RangeSync
