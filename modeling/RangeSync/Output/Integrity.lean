import RangeSync.Digest.Sha1
import RangeSync.Disk.Basic
import RangeSync.Log

/-!
# Checking the digest of a file

The digest of a file is compared with an expected one as text, digit by digit, so an expected digest
with capitals matches nothing.
-/

namespace RangeSync

namespace Integrity

/-- The digest of the file at a path. -/
def digestOf (path : String) : FileAct String := do
  return Digest.sha1Hex (← Disk.contents path)

/-- The file at a path has the expected digest; a warning says if it has not. -/
def verify (path expected : String) : FileAct (Bool × List Entry) := do
  let actual ← digestOf path
  if actual = expected then pure (true, [])
  else
    pure (false, [⟨.warning, "SHA-1 mismatch",
      [("path", path), ("expected", expected), ("actual", actual)]⟩])

end Integrity
end RangeSync
