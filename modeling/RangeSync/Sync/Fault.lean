import RangeSync.Rebuild.Fault

/-!
# What can go wrong while a file is brought up to date

Besides the causes for which a file cannot be put together there are those for which its descriptor
cannot be had.
-/

namespace RangeSync

open Text

/-- Why there is no descriptor. -/
inductive MetadataFault
  /-- The request has no answer. -/
  | unsent (fault : Http.SendFault)
  /-- The answer reports an error. -/
  | refused (status : Nat)
  /-- The bytes of the answer end before all announced ones are there. -/
  | broken
  /-- The URL names a file of another machine. -/
  | elsewhere
  | otherScheme (scheme : String)
  | noFile
deriving DecidableEq, Repr

/-- The wording of a fault. -/
def MetadataFault.message : MetadataFault → String
  | .unsent fault => "request failed: " ++ fault.message
  | .refused status => "HTTP status " ++ Http.statusText status
  | .broken => "error reading response body: " ++ Http.brokenBody
  | .elsewhere => "not a usable local file URL"
  | .otherScheme scheme => "unsupported URL scheme " ++ quoted scheme
  | .noFile => "no such file"

/-- Why a file is not brought up to date. -/
inductive SyncFault
  /-- The descriptor at a location cannot be had. -/
  | metadata (location : String) (fault : MetadataFault)
  | rebuild (fault : RebuildFault)
  | files (kind : IoKind)
  /-- The location is empty. -/
  | nowhere
deriving DecidableEq, Repr

namespace SyncFault

/-- What the system says, if the fault is nothing else. -/
def system? : SyncFault → Option String
  | .files kind => some kind.message
  | .nowhere => some "cannot make an empty path absolute"
  | _ => none

/-- The wording of a fault. -/
def message (fault : SyncFault) : String :=
  match fault with
  | .metadata location reason =>
    "Could not fetch metadata from " ++ location ++ ": " ++ reason.message
  | .rebuild reason => reason.message
  | _ => "I/O error: " ++ fault.system?.getD ""

/-- The wording of a fault with the causes behind it, each after a colon. -/
def chain (fault : SyncFault) : String :=
  match fault.system? with
  | some cause => fault.message ++ ": " ++ cause
  | none => fault.message

end SyncFault
end RangeSync
