import RangeSync.Text.Digits

/-!
# Plans

A plan says how a target file is put together: which ranges of it are copied from a seed file, and
which are downloaded. Offsets and lengths are words of 64 bits, and a plan may hold any of them;
`Plan.check` tells whether every range lies inside the target. Lengths and totals that leave the 64
bits have no value.
-/

namespace RangeSync

open Text

/-- Bytes of the seed that are copied into the target. -/
structure ReuseRange where
  /-- Where the bytes go in the target. -/
  destination : UInt64
  /-- Where the bytes are in the seed. -/
  source : UInt64
  length : UInt64
deriving DecidableEq, Repr

/-- Bytes of the target that are downloaded, both ends included. -/
structure DownloadRange where
  first : UInt64
  last : UInt64
deriving DecidableEq, Repr

/-- How a target is put together. -/
structure Plan where
  /-- The length of the target that the plan is made for, if it says so. -/
  length : Option UInt64
  reuse : List ReuseRange
  download : List DownloadRange
deriving DecidableEq, Repr

/-- The number as a word, if it fits. -/
def word? (n : Nat) : Option UInt64 :=
  if n < UInt64.size then some (UInt64.ofNat n) else none

/-- The sum of words, if it and all sums on the way fit. -/
def sumWords? (words : List UInt64) : Option UInt64 :=
  words.foldlM (fun total w => word? (total.toNat + w.toNat)) 0

namespace ReuseRange

/-- The range with the names of its parts. -/
def describe (r : ReuseRange) : String :=
  "ReuseRange \x7b destination_offset: " ++ decimal r.destination.toNat ++ ", source_offset: " ++
    decimal r.source.toNat ++ ", length: " ++ decimal r.length.toNat ++ " \x7d"

/-- The range ends inside a target of the given length. -/
def fits (r : ReuseRange) (target : UInt64) : Bool :=
  r.destination.toNat + r.length.toNat ≤ target.toNat

end ReuseRange

namespace DownloadRange

/-- How many bytes the range has. The end of the range is computed first, so a range that includes
the last offset of all has no length. -/
def length? (d : DownloadRange) : Option UInt64 :=
  (word? (d.last.toNat + 1)).map fun beyond => UInt64.ofNat (beyond.toNat - d.first.toNat)

/-- The range ends before it begins. -/
def isEmpty (d : DownloadRange) : Bool :=
  d.last < d.first

/-- The value of the header that asks for the range. -/
def header (d : DownloadRange) : String :=
  "bytes=" ++ decimal d.first.toNat ++ "-" ++ decimal d.last.toNat

/-- The range is not empty and ends inside a target of the given length. -/
def fits (d : DownloadRange) (target : UInt64) : Bool :=
  d.first ≤ d.last && d.last < target

end DownloadRange

/-- What can be wrong with a plan. -/
inductive PlanFault
  /-- The text of the plan cannot be read. -/
  | unreadable (reason : String)
  /-- The plan is made for another target. -/
  | otherLength (length target : UInt64)
  /-- A reuse range leaves the target. -/
  | writesOutside (range : ReuseRange) (target : UInt64)
  /-- A download range is empty or leaves the target. -/
  | downloadOutside (range : DownloadRange) (target : UInt64)
  /-- A reuse range leaves the seed. -/
  | readsOutside (range : ReuseRange) (seed : String)
deriving DecidableEq, Repr

/-- The wording of a fault. -/
def PlanFault.message : PlanFault → String
  | .unreadable reason => "invalid plan JSON: " ++ reason
  | .otherLength length target =>
    "plan is for a " ++ decimal length.toNat ++ " byte file but the target is " ++
      decimal target.toNat ++ " bytes"
  | .writesOutside range target =>
    "reuse range " ++ range.describe ++ " writes past the end of the " ++ decimal target.toNat ++
      " byte target"
  | .downloadOutside range target =>
    "download range " ++ range.header ++ " is invalid for a " ++ decimal target.toNat ++
      " byte target"
  | .readsOutside range seed =>
    "reuse range " ++ range.describe ++ " reads past the end of the seed " ++ seed

namespace Plan

/-- A plan without ranges, for any target. -/
def empty : Plan := ⟨none, [], []⟩

/-- The bytes that are downloaded in all. -/
def downloadTotal? (p : Plan) : Option UInt64 :=
  (p.download.mapM DownloadRange.length?).bind sumWords?

/-- The bytes that are reused in all. -/
def reuseTotal? (p : Plan) : Option UInt64 :=
  sumWords? (p.reuse.map ReuseRange.length)

/-- **The check of a plan**: it is made for the target, and its ranges lie inside of it. The first
fault counts. -/
def check (p : Plan) (target : UInt64) : Except PlanFault Unit :=
  match p.length.filter (· != target) with
  | some length => .error (.otherLength length target)
  | none =>
    match p.reuse.find? (!·.fits target) with
    | some range => .error (.writesOutside range target)
    | none =>
      match p.download.find? (!·.fits target) with
      | some range => .error (.downloadOutside range target)
      | none => .ok ()

end Plan
end RangeSync
