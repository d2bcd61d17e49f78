import RangeSync.Descriptor.Basic
import RangeSync.Disk.Kind
import RangeSync.Http.Client
import RangeSync.Plan.Basic
import RangeSync.Program

/-!
# What can go wrong while a file is put together

Every cause has its wording here, so that no message is made anywhere else.
-/

namespace RangeSync

open Text

/-- Why a range is not there. -/
inductive DownloadFault
  /-- The request has no answer. -/
  | unsent (fault : Http.SendFault)
  /-- The answer reports an error. -/
  | refused (status : Nat)
  /-- The bytes of the answer end before all announced ones are there. -/
  | broken (status : Nat)
  /-- The answer ends before the range begins. -/
  | endedBefore (status : Nat) (delivered : Nat)
  /-- The answer ends inside the range. -/
  | endedInside (status : Nat) (received : Nat) (expected : UInt64)
deriving DecidableEq, Repr

namespace DownloadFault

/-- The status of the answer, if there is one. -/
def status? : DownloadFault → Option Nat
  | .unsent _ => none
  | .refused status => some status
  | .broken status => some status
  | .endedBefore status _ => some status
  | .endedInside status _ _ => some status

/-- The wording of a fault. -/
def message : DownloadFault → String
  | .unsent fault => "request failed: " ++ fault.message
  | .refused status => "HTTP status " ++ Http.statusText status
  | .broken _ => "error reading response body: " ++ Http.brokenBody
  | .endedBefore _ delivered =>
    "response ended after " ++ decimal delivered ++ " bytes, before the start of the range"
  | .endedInside _ received expected =>
    "response ended after " ++ decimal received ++ " of " ++ decimal expected.toNat ++ " bytes"

end DownloadFault

/-- Why there is no plan. -/
inductive PlannerFault
  | unstarted (program : String) (fault : StartFault)
  /-- The program ended badly; what it printed as errors is kept. -/
  | ended (program : String) (exit : Exit) (complaint : String)
  | unreadable (program : String) (reason : String)
deriving DecidableEq, Repr

/-- The wording of a fault. -/
def PlannerFault.message : PlannerFault → String
  | .unstarted program fault => "could not run " ++ program ++ ": " ++ fault.message
  | .ended program exit complaint =>
    program ++ " exited with " ++ exit.toText ++ ": " ++ complaint
  | .unreadable program reason => program ++ " printed an invalid plan: " ++ reason

/-- Why a file cannot be put together. -/
inductive RebuildFault
  | descriptor (error : DescriptorError)
  | plan (fault : PlanFault)
  /-- A range of a target of the given length is not there. -/
  | download (range : DownloadRange) (length : UInt64) (fault : DownloadFault)
  /-- The file has another digest than it should have. -/
  | digest (expected actual : String)
  | planner (fault : PlannerFault)
  | files (kind : IoKind)
  /-- Requests cannot be sent under these settings. -/
  | client (reason : String)
deriving DecidableEq, Repr

/-- The wording of a fault. -/
def RebuildFault.message : RebuildFault → String
  | .descriptor error => "Malformed Metadata: " ++ error.message
  | .plan fault => "Malformed Plan: " ++ fault.message
  | .download range length fault =>
    "Download Failed: " ++ range.header ++ " (target length " ++ decimal length.toNat ++ "): " ++
      fault.message
  | .digest expected actual =>
    "Integrity Mismatch: expected SHA-1 " ++ expected ++ ", got " ++ actual
  | .planner fault => "Planner Failure: " ++ fault.message
  | .files kind => "IO Error: " ++ kind.message
  | .client reason => "Configuration Error: could not build HTTP client: " ++ reason

end RangeSync
