import RangeSync.Proofs.Finish

/-!
# The steps of a job

Whatever a job does, it does in a handful of steps: it reads the seed, it writes to the output and
moves in it, it reads the output back, and it commits or discards it. How often, and in which order,
depends on the plan, on the disk and on the server. A statement that holds of every single step, and
that chains, needs none of that: it holds of the whole.

`RangeSync.Bench.Admits` lists the steps. Each half of a run then goes along every relation that
admits them, with no other fact about the run: `RangeSync.Bench.Admits.copyReuse` and
`RangeSync.Bench.Admits.downloadAll` for the first half, `RangeSync.Bench.Admits.finish` for the
second one.
-/

namespace RangeSync

open Act Disk

namespace Bench

variable {R : Bench → Bench → Prop}

/-- **A relation that every step goes along** of those that fill an output and finish it. -/
structure Admits (R : Bench → Bench → Prop) : Prop extends Chains R where
  opens (path : String) : (onWorld (World.onDisk (openForReading path))).GoesAlong R
  reads (file : Location) (position count : Nat) :
    (onWorld (World.onDisk (readAt file position count))).GoesAlong R
  seeks (offset : Nat) : (onWriter (Writer.seekTo offset)).GoesAlong R
  writes (data : List UInt8) : (onWriter (Writer.write data)).GoesAlong R
  digests : (onWriter Writer.digest).GoesAlong R
  commits : (onWriter Writer.commit).GoesAlong R
  discards (message : String) (describe : IoKind → String) (writer : Writer) :
    (onWorld (Job.attempt message describe writer.discard)).GoesAlong R
  notes (entry : Entry) : (onWorld (World.note entry)).GoesAlong R

namespace Admits

/-! ### Filling -/

theorem copyBytes (h : Admits R) (file : Location) (position left copied : Nat) :
    (copyBytes file position left copied).GoesAlong R := by
  induction left using Nat.strongRecOn generalizing position copied with
  | ind left ih =>
    unfold RangeSync.copyBytes
    split
    · exact h.pure _
    · rename_i hleft
      refine h.bind (h.reads _ _ _) fun bytes => ?_
      split
      · exact h.pure _
      · exact h.bind (h.writes _) fun _ => ih _ (by omega) _ _

theorem copyRange (h : Admits R) (job : Job) (file : Location) (r : ReuseRange) :
    (job.copyRange file r).GoesAlong R := by
  unfold Job.copyRange
  refine h.when (h.failed _) (h.bind (h.seeks _) fun _ => ?_)
  refine h.bind (h.copyBytes _ _ _ _) fun _ => ?_
  exact goesAlong_ite (h.failed _) (h.pure _)

/-- **Copying from the seed.** -/
theorem copyReuse (h : Admits R) (job : Job) : job.copyReuse.GoesAlong R := by
  have hranges (file : Location) (total : UInt64) (ranges : List ReuseRange) :
      (job.copyRanges file total ranges).GoesAlong R := by
    induction ranges generalizing total with
    | nil => exact h.pure _
    | cons r rest ih =>
      exact h.bind (h.copyRange job file r) fun _ => h.bind (h.orCrash _) fun total => ih total
  exact goesAlong_ite (h.pure _) (h.bind (h.opens _) fun file => hranges file 0 job.plan.reuse)

/-- Taking a range out of an answer, where its bytes may be counted. -/
theorem take (h : Admits R) (hcount : ∀ n, (onWorld (World.count n)).GoesAlong R) (o : Origin)
    (r : DownloadRange) (target : UInt64) (answer : Http.Response) :
    (o.take r target answer).GoesAlong R := by
  have hstore (pieces : List (List UInt8)) : (Origin.store pieces).GoesAlong R := by
    induction pieces with
    | nil => exact h.pure _
    | cons piece rest ih => exact h.bind (h.writes _) fun _ => h.bind (hcount _) fun _ => ih
  refine goesAlong_ite (h.failed _) (h.bind (h.orCrash _) fun n => ?_)
  refine goesAlong_ite h.crashed (h.bind (hstore _) fun _ => ?_)
  exact goesAlong_ite (h.failed _) (h.pure _)

/-- Fetching a range, where a request may be sent as well. -/
theorem fetch (h : Admits R) (hcount : ∀ n, (onWorld (World.count n)).GoesAlong R)
    (hnet : ∀ wrap (c : Http.Client) url range, (onNet wrap (c.fetch url range)).GoesAlong R)
    (o : Origin) (r : DownloadRange) (target : UInt64) : (o.fetch r target).GoesAlong R :=
  h.bind (hnet _ _ _ _) fun answer =>
    goesAlong_ite (h.failed _) (h.when (h.notes _) (h.take hcount o r target answer))

/-- **Downloading**, where requests may be sent and bytes may be counted. -/
theorem downloadAll (h : Admits R) (hcount : ∀ n, (onWorld (World.count n)).GoesAlong R)
    (hnet : ∀ wrap (c : Http.Client) url range, (onNet wrap (c.fetch url range)).GoesAlong R)
    (hannounce : ∀ total, (onWorld (World.announce total)).GoesAlong R)
    (hassert : (onWorld World.assertComplete).GoesAlong R) (job : Job) (origin : Option Origin) :
    (job.downloadAll origin).GoesAlong R := by
  have hranges (o : Origin) (total : UInt64) (ranges : List DownloadRange) :
      (job.downloadRanges o total ranges).GoesAlong R := by
    induction ranges generalizing total with
    | nil => exact h.pure _
    | cons r rest ih =>
      refine h.bind (h.seeks _) fun _ => ?_
      refine h.bind (h.fetch hcount hnet o r _) fun _ => ?_
      exact h.bind (h.orCrash _) fun total => ih total
  cases origin with
  | none => exact h.pure _
  | some o =>
    refine h.bind (h.orCrash _) fun announced => h.bind (hannounce _) fun _ => ?_
    exact h.bind (hranges o 0 _) fun total => h.bind hassert fun _ => h.pure _

/-! ### Finishing -/

/-- **Comparing the digest.** -/
theorem compare (h : Admits R) (job : Job) (expected : String) :
    (job.compare expected).GoesAlong R := by
  have hreject : job.reject.GoesAlong R := by
    refine h.bind h.refl fun ⟨writer, w⟩ => ?_
    dsimp only
    split
    · exact h.bind (h.notes _) fun _ => h.discards _ _ _
    · exact h.bind h.commits fun _ => h.notes _
  refine h.bind h.digests fun actual => ?_
  exact goesAlong_ite (h.bind hreject fun _ => h.failed _) (h.pure _)

/-- **Putting the output into its place**, where it may be dated. -/
theorem settle (h : Admits R) (job : Job)
    (hdate : ∀ time path, job.mtime = some time → job.settings.preserveMtime = true →
      (onWorld (Job.attempt "Failed to set modification time on output" IoKind.describe
        (setModified path time))).GoesAlong R) :
    job.settle.GoesAlong R := by
  refine h.bind h.commits fun path => ?_
  split
  · rename_i time hmtime hpreserve
    exact h.bind (hdate time path hmtime hpreserve) fun _ => h.pure _
  · exact h.pure _

/-- **Finishing an output**, where it may be dated. -/
theorem finish (h : Admits R) (job : Job)
    (hdate : ∀ time path, job.mtime = some time → job.settings.preserveMtime = true →
      (onWorld (Job.attempt "Failed to set modification time on output" IoKind.describe
        (setModified path time))).GoesAlong R) :
    job.finish.GoesAlong R := by
  rcases he : job.expected with _ | expected
  · rw [Job.finish_of_none he]
    exact h.settle job hdate
  · rw [Job.finish_of_some he]
    exact h.bind (h.compare job expected) fun _ => h.settle job hdate

end Admits

end Bench
end RangeSync
