import RangeSync.Http.Pieces
import RangeSync.Output.Writer
import RangeSync.World

/-!
# Fetching a range

One request asks for one range, and the bytes of the answer go to the output as they arrive. A
server may ignore that only a part was asked for and send the whole file; then the bytes in front
of the range are passed over. An answer that is too long is cut, one that is too short is a
failure, and what has arrived by then stays in the output.
-/

namespace RangeSync

open Http

/-- An output under construction and the world around it. -/
abbrev Bench := Writer × World

/-- An action on an output and the world. -/
abbrev BenchAct (α : Type) := Act Bench (Stop RebuildFault) α

namespace Bench

variable {α : Type}

/-- An action on the world. -/
def onWorld (act : Work α) : BenchAct α :=
  act.within (·.2) (fun world b => (b.1, world)) id

/-- An operation on the output. -/
def onWriter (act : WriterAct α) : BenchAct α :=
  act.within (fun b => (b.1, b.2.disk)) (fun s b => (s.1, { b.2 with disk := s.2 }))
    fun kind => .failed (.files kind)

/-- A request. -/
def onNet (wrap : SendFault → RebuildFault) (act : Act Net SendFault α) : BenchAct α :=
  act.within (fun b => b.2.net) (fun net b => (b.1, { b.2 with net })) fun fault =>
    .failed (wrap fault)

end Bench

/-- Where the missing ranges come from. -/
structure Origin where
  client : Client
  url : Url
  /-- The most bytes that are taken from an answer at a time. -/
  chunk : UInt64
deriving DecidableEq, Repr

namespace Origin

/-- The most bytes that are taken at a time: at least one. -/
def portion (o : Origin) : Nat :=
  max 1 o.chunk.toNat

/-- Room for a portion is made before anything is read; there is a limit to it. -/
def roomLimit : Nat := 0x8000000000000000

/-- The entry about an answer that does not start where it should. -/
def ignoredEntry (o : Origin) (status : Nat) (range : DownloadRange) : Entry where
  level := .warning
  message := "Server ignored the Range header"
  fields := [("url", o.url.toText), ("status", statusText status), ("range", range.header)]

/-- How many bytes of an answer come before the range. -/
def lead (status : Nat) (range : DownloadRange) : Nat :=
  if status = partialContent then 0 else range.first.toNat

/-- Write portions to the output, and count each of them. -/
def store : List (List UInt8) → BenchAct Unit
  | [] => pure ()
  | bytes :: rest => do
    Bench.onWriter (Writer.write bytes)
    Bench.onWorld (World.count bytes.length)
    store rest

/-- Take the bytes of a range out of an answer that went well. -/
def take (o : Origin) (range : DownloadRange) (target : UInt64) (answer : Response) :
    BenchAct UInt64 := do
  let failed (fault : DownloadFault) : BenchAct UInt64 := Act.fail (.download range target fault)
  let status := answer.status
  let body := answer.body
  let before := lead status range
  let delivered := body.delivered.length
  if delivered < before then
    failed (if body.isBroken then .broken status else .endedBefore status delivered)
  else
    let expected ← Act.orCrash range.length?
    if roomLimit ≤ o.portion then Act.crash
    else
      let wanted := limited expected.toNat (skipped before body.pieces)
      store (portions o.portion wanted)
      let received := wanted.flatten.length
      if received < expected.toNat then
        failed (if body.isBroken then .broken status
          else .endedInside status received expected)
      else pure expected

/-- **Fetch a range** of a target of a given length into the output, at its position. The answer is
the number of bytes. -/
def fetch (o : Origin) (range : DownloadRange) (target : UInt64) : BenchAct UInt64 := do
  let answer ← Bench.onNet (fun fault => .download range target (.unsent fault))
    (o.client.fetch o.url (some range.header))
  if !isSuccess answer.status then
    Act.fail (.download range target (.refused answer.status))
  else
    if answer.status ≠ partialContent then
      Bench.onWorld (World.note (o.ignoredEntry answer.status range))
    o.take range target answer

end Origin
end RangeSync
