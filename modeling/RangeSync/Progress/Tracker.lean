import RangeSync.Progress.Sink

/-!
# Counting the bytes of one download

A tracker adds up the bytes of one item and tells a sink after every piece. It checks that no more
bytes arrive than were announced: `advance` counts first and then fails, so that the count of a
failed step can still be seen, but its update is not sent.
-/

namespace RangeSync

/-- The running count of one item. -/
structure Tracker where
  item : String
  /-- The bytes announced. -/
  total : UInt64
  /-- The bytes counted, modulo `2 ^ 64`. -/
  completed : UInt64
  sink : ProgressSink
deriving DecidableEq, Repr

namespace Tracker

/-- A tracker that has counted nothing. -/
def fresh (item : String) (sink : ProgressSink) : Tracker :=
  ⟨item, 0, 0, sink⟩

/-- A tracker that only checks the count. -/
def verifying : Tracker :=
  fresh "" .silent

/-- Announce the number of bytes. -/
def announce (t : Tracker) (total : UInt64) : Tracker :=
  { t with total }

/-- **Count some bytes.** Fails, with the bytes counted, if the count leaves its 64 bits or exceeds
the announced number; otherwise the sink receives an update. -/
def advance (t : Tracker) (increment : UInt64) : Except Tracker Tracker :=
  let counted := { t with completed := t.completed + increment }
  if t.completed.toNat + increment.toNat ≤ t.total.toNat then
    .ok { counted with sink := t.sink.receive ⟨t.item, t.total, counted.completed, increment⟩ }
  else .error counted

/-- All announced bytes were counted, and no more. -/
def isComplete (t : Tracker) : Bool :=
  t.completed == t.total

end Tracker
end RangeSync
