import RangeSync.Json.Value
import RangeSync.Plan.Basic

/-!
# Plans as JSON

A planner prints its plan as a JSON object with the fields `length`, `reuse` and `download`; a reuse
range is a tuple of three counts and a download range a tuple of two. Fields may come in any order
and may be missing, unknown fields are passed over, and a list of the three values in order is
accepted too. `Plan.toJson` prints a plan and `Plan.ofJson` reads one.
-/

namespace RangeSync

open Text Json

/-! ### Printing -/

/-- Texts with commas between them, in brackets. -/
def bracketed (parts : List String) : String :=
  "[" ++ ",".intercalate parts ++ "]"

/-- A tuple of counts. -/
def tupleText (counts : List UInt64) : String :=
  bracketed (counts.map fun n => decimal n.toNat)

/-- The counts of a reuse range, in order. -/
def ReuseRange.counts (r : ReuseRange) : List UInt64 :=
  [r.destination, r.source, r.length]

/-- The counts of a download range, in order. -/
def DownloadRange.counts (d : DownloadRange) : List UInt64 :=
  [d.first, d.last]

/-- The printed form of a plan. The length is left out if there is none. -/
def Plan.toJson (p : Plan) : String :=
  let length := match p.length with
    | some n => "\"length\":" ++ decimal n.toNat ++ ","
    | none => ""
  "\x7b" ++ length ++
    "\"reuse\":" ++ bracketed (p.reuse.map fun r => tupleText r.counts) ++ "," ++
    "\"download\":" ++ bracketed (p.download.map fun d => tupleText d.counts) ++ "\x7d"

/-! ### Reading -/

/-- A reuse range. -/
def readReuse : Reader ReuseRange := fun s => do
  let (counts, rest) ← readTuple 3 s
  match counts with
  | [destination, source, length] => .ok (⟨destination, source, length⟩, rest)
  | _ => failHere .endInValue rest

/-- A download range. -/
def readDownload : Reader DownloadRange := fun s => do
  let (counts, rest) ← readTuple 2 s
  match counts with
  | [first, last] => .ok (⟨first, last⟩, rest)
  | _ => failHere .endInValue rest

/-- The fields that have been read so far. -/
structure PlanFields where
  length : Option (Option UInt64)
  reuse : Option (List ReuseRange)
  download : Option (List DownloadRange)
deriving DecidableEq, Repr

/-- No fields. -/
def PlanFields.blank : PlanFields := ⟨none, none, none⟩

/-- The plan of some fields; a missing field is empty. -/
def PlanFields.plan (f : PlanFields) : Plan :=
  ⟨f.length.getD none, f.reuse.getD [], f.download.getD []⟩

/-- The rest after the colon between a key and its value. -/
def readColon (s : List Char) : Except Fault (List Char) :=
  match skipGap s with
  | [] => failAfter .endInObject []
  | ':' :: rest => .ok rest
  | s => failAfter .expectedColon s

/-- A field has been given twice. The place of the fault is the next part of the text, or after it
if it closes the object. -/
def failDuplicate {α : Type} (name : String) (s : List Char) : Except Fault α :=
  match skipGap s with
  | '\x7d' :: rest => failHere (.duplicateField name) rest
  | s => failHere (.duplicateField name) s

/-- The fields with the one whose key has just been read. -/
def PlanFields.readField (f : PlanFields) (key : String) : Reader PlanFields := fun s =>
  match key with
  | "length" =>
    if f.length.isSome then failDuplicate key s
    else do
      let s ← readColon s
      let (length, s) ← readOptionalCount s
      .ok ({ f with length := some length }, s)
  | "reuse" =>
    if f.reuse.isSome then failDuplicate key s
    else do
      let s ← readColon s
      let (reuse, s) ← readList readReuse s
      .ok ({ f with reuse := some reuse }, s)
  | "download" =>
    if f.download.isSome then failDuplicate key s
    else do
      let s ← readColon s
      let (download, s) ← readList readDownload s
      .ok ({ f with download := some download }, s)
  | _ => do
    let s ← readColon s
    let s ← skipValue s
    .ok (f, s)

/-- The rest after the quote that opens the next key, or `none` with the rest after the brace that
closes the object. -/
def nextKey (isFirst : Bool) (s : List Char) : Except Fault (Option (List Char) × List Char) :=
  match skipGap s with
  | [] => failAfter .endInObject []
  | '\x7d' :: rest => .ok (none, rest)
  | c :: rest =>
    if isFirst then
      if c = '"' then .ok (some rest, rest) else failAfter .keyNotString (c :: rest)
    else if c = ',' then
      match skipGap rest with
      | [] => failAfter .endInValue []
      | '"' :: rest => .ok (some rest, rest)
      | '\x7d' :: rest => failAfter .trailingComma ('\x7d' :: rest)
      | s => failAfter .keyNotString s
    else failAfter .expectedObjectEnd (c :: rest)

/-- The fields of an object up to its closing brace. Every field takes up a character. -/
def PlanFields.readAll : Nat → Bool → PlanFields → Reader PlanFields
  | 0, _, _, s => failHere .endInObject s
  | fuel + 1, isFirst, f, s => do
    match ← nextKey isFirst s with
    | (none, s) => .ok (f, s)
    | (some s, _) => do
      let (key, s) ← readString s
      let (f, s) ← f.readField key s
      readAll fuel false f s

/-- The values of a plan in a list, as many as there are. -/
def readPlanList : Reader Plan := fun s => do
  let (more, s) ← nextElement true s
  if !more then
    let s ← closeList s
    .ok (.empty, s)
  else
    let (length, s) ← readOptionalCount s
    let (more, s) ← nextElement false s
    if !more then
      let s ← closeList s
      .ok (⟨length, [], []⟩, s)
    else
      let (reuse, s) ← readList readReuse s
      let (more, s) ← nextElement false s
      if !more then
        let s ← closeList s
        .ok (⟨length, reuse, []⟩, s)
      else
        let (download, s) ← readList readDownload s
        let s ← closeList s
        .ok (⟨length, reuse, download⟩, s)

/-- A plan, and the rest after it. -/
def readPlan : Reader Plan := fun s =>
  match skipGap s with
  | [] => failAfter .endInValue []
  | '[' :: rest => readPlanList rest
  | '\x7b' :: rest => do
    let (fields, rest) ← PlanFields.readAll (rest.length + 1) true .blank rest
    .ok (fields.plan, rest)
  | s => failExpected "struct ReconstructionPlan" s

/-- The plan of a whole text, with nothing but blanks after it. -/
def readWhole (s : List Char) : Except Fault Plan := do
  let (plan, rest) ← readPlan s
  match skipGap rest with
  | [] => .ok plan
  | rest => failAfter .trailingCharacters rest

/-- **Reading a plan**: the plan, or what is wrong with the text. -/
def Plan.ofJson (text : String) : Except String Plan :=
  match readWhole text.toList with
  | .ok plan => .ok plan
  | .error fault => .error (fault.message text.toList)

end RangeSync
