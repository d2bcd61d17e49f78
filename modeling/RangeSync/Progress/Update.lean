import RangeSync.Numeric.Binary64

/-!
# Progress updates

While bytes arrive, a sink is told again and again how many of the expected bytes are there. The
fraction is a quotient of two rounded doubles, cut off at one; an empty download is complete from
the start.
-/

namespace RangeSync

open Numeric

/-- What a sink is told. -/
structure ProgressUpdate where
  /-- What is being fetched. -/
  item : String
  /-- The bytes expected. -/
  total : UInt64
  /-- The bytes there. -/
  completed : UInt64
  /-- The bytes that came since the last update. -/
  increment : UInt64
deriving DecidableEq, Repr

namespace ProgressUpdate

/-- The part of the expected bytes that is there, at most one. -/
def fraction (u : ProgressUpdate) : Magnitude :=
  if u.total = 0 then .ofNat 1
  else
    (Magnitude.div (.ofNat u.completed.toNat) (.ofNat u.total.toNat)).min (.ofNat 1)

/-- The fraction in percent. -/
def percent (u : ProgressUpdate) : Magnitude :=
  u.fraction.mul (.ofNat 100)

/-- The fraction in thousandths, cut to a whole number. -/
def permille (u : ProgressUpdate) : Nat :=
  (u.fraction.mul (.ofNat 1000)).floor

/-- All expected bytes are there. -/
def isComplete (u : ProgressUpdate) : Bool :=
  u.total ≤ u.completed

end ProgressUpdate
end RangeSync
