import RangeSync.Text.Digits
import RangeSync.Text.Quoted

/-!
# Kinds of file failures

The reasons for which an operation on files fails.
-/

namespace RangeSync

/-- Why an operation on files fails. -/
inductive IoKind
  | notFound
  | permissionDenied
  | alreadyExists
  | notADirectory
  | isADirectory
  | invalidInput
  | invalidFilename
  | filesystemLoop
  | resourceBusy
  | storageFull
  | other
deriving DecidableEq, Repr

/-- The number that the operating system gives a reason, its name and its wording. -/
def IoKind.system : IoKind → Nat × String × String
  | .notFound => (2, "NotFound", "No such file or directory")
  | .permissionDenied => (13, "PermissionDenied", "Permission denied")
  | .alreadyExists => (17, "AlreadyExists", "File exists")
  | .notADirectory => (20, "NotADirectory", "Not a directory")
  | .isADirectory => (21, "IsADirectory", "Is a directory")
  | .invalidInput => (22, "InvalidInput", "Invalid argument")
  | .invalidFilename => (36, "InvalidFilename", "File name too long")
  | .filesystemLoop => (40, "FilesystemLoop", "Too many levels of symbolic links")
  | .resourceBusy => (16, "ResourceBusy", "Device or resource busy")
  | .storageFull => (28, "StorageFull", "No space left on device")
  | .other => (5, "Other", "Input/output error")

/-- The name of the reason. -/
def IoKind.name (k : IoKind) : String :=
  k.system.2.1

/-- The wording of the reason, with its number. -/
def IoKind.message (k : IoKind) : String :=
  k.system.2.2 ++ " (os error " ++ Text.decimal k.system.1 ++ ")"

/-- The reason with the names of its parts, as it stands in log lines. -/
def IoKind.describe (k : IoKind) : String :=
  "Os \x7b code: " ++ Text.decimal k.system.1 ++ ", kind: " ++ k.name ++ ", message: " ++
    Text.quoted k.system.2.2 ++ " \x7d"

end RangeSync
