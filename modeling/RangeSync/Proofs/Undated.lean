import RangeSync.Proofs.Run
import RangeSync.Proofs.Steps
import RangeSync.Proofs.Sync

/-!
# What gives a file its date

A file loses its date when it is written, and a file that is created has none. So whatever has a
date has been left alone, and there is one operation only that makes a difference to that. Here this
is followed through everything that a task does: a relation between trees says that **every file
with a date was there before, as it is** (`RangeSync.Tree.AddsNoDate`), every operation but the one
goes along it, and so does every run in which the one is not reached.

It is not reached in two cases.

* Nobody wants files to be dated (`RangeSync.SyncTask.goesAlong_run`).
* The job fails (`RangeSync.Job.ends_run_undated`). Dating the output is the last thing that it does,
  and whether that succeeds makes no difference to it. Under the strict policy nothing is left for
  the task to fail at after that (`RangeSync.SyncTask.ends_run_undated`).

One point needs care. Moving a file takes its date along, so a file can get a date at a place where
it had none. The only file that is moved is the temporary one that a commit has just made.
-/

namespace RangeSync

open Act Disk

variable {α : Type}

namespace Tree

variable {t t' t'' : Tree} {place : Location}

/-- **Every file with a date was there before**, as it is. -/
def AddsNoDate (t t' : Tree) : Prop :=
  ∀ place content mode time, t'.get? place = some (.file content mode (some time)) →
    t.get? place = some (.file content mode (some time))

theorem AddsNoDate.refl (t : Tree) : AddsNoDate t t :=
  fun _ _ _ _ h => h

theorem AddsNoDate.trans (h : AddsNoDate t t') (h' : AddsNoDate t' t'') : AddsNoDate t t'' :=
  fun place content mode time hget => h place content mode time (h' place content mode time hget)

/-- It is enough to look at the place that has changed. -/
theorem addsNoDate_of_sameOff (h : SameOff place t t')
    (hnode : ∀ content mode time, t'.get? place ≠ some (.file content mode (some time))) :
    AddsNoDate t t' := by
  intro other content mode time hget
  by_cases ho : other = place
  · subst ho
    exact absurd hget (hnode content mode time)
  · rwa [h other ho] at hget

theorem addsNoDate_put (t : Tree) (place : Location) (content : List UInt8) (mode : Nat) :
    AddsNoDate t (t.put place (.file content mode none)) := by
  refine addsNoDate_of_sameOff (sameOff_put t place _) fun content' mode' time hget => ?_
  rw [get?_put_self t _ (ne_nil_of_file hget)] at hget
  cases hget

theorem addsNoDate_erase (t : Tree) (place : Location) : AddsNoDate t (t.erase place) := by
  refine addsNoDate_of_sameOff (sameOff_erase t place) fun content mode time hget => ?_
  rw [get?_erase_self (ne_nil_of_file hget)] at hget
  cases hget

theorem addsNoDate_edited (t : Tree) (place : Location) (f : List UInt8 → List UInt8) :
    AddsNoDate t (edited t place f) := by
  unfold edited
  split
  · exact addsNoDate_put t place _ _
  · exact .refl t

end Tree

/-! ### Operations on files -/

namespace Disk

variable {d d' : Disk} {t : Tree} {place : Location}

/-- No tree on the way has a date that was not there. -/
def AddsNoDate (d d' : Disk) : Prop :=
  Along d.tree.AddsNoDate d d'

theorem Kept.addsNoDate (h : d.Kept d') : d.AddsNoDate d' :=
  h.along

theorem Turned.addsNoDate (h : d.Turned t d') (ht : d.tree.AddsNoDate t) : d.AddsNoDate d' :=
  h.along ht

theorem chains_addsNoDate : Chains AddsNoDate where
  refl d := (Kept.refl d).addsNoDate
  trans h h' := h.trans (h'.mono fun _ ht => (h.tree (.refl _)).trans ht)

/-- Looking adds no date. -/
theorem goesAlong_of_kept {act : FileAct α}
    (h : ∀ d, act.Ends d (fun _ d' => d.Kept d') fun _ d' => d.Kept d') :
    act.GoesAlong AddsNoDate :=
  goesAlong_of_ends fun d => (h d).mono (fun _ _ hk => hk.addsNoDate) fun _ _ hk => hk.addsNoDate

theorem goesAlong_attempt : attempt.GoesAlong AddsNoDate :=
  goesAlong_of_kept fun d => (ends_attempt d).mono (fun _ _ h => h) fun _ _ h => h.1

theorem goesAlong_openForReading (path : String) : (openForReading path).GoesAlong AddsNoDate :=
  goesAlong_of_kept fun d => (ends_openForReading d path).mono (fun _ _ h => h.1) fun _ _ h => h.1

theorem goesAlong_readAt (place : Location) (position count : Nat) :
    (readAt place position count).GoesAlong AddsNoDate :=
  goesAlong_of_kept fun d => (ends_readAt d place position count).mono (fun _ _ h => h.1)
    fun _ _ h => h.1

theorem goesAlong_isFile (path : String) : (isFile path).GoesAlong AddsNoDate :=
  goesAlong_of_kept fun d => ends_isFile fun _ => Kept.refl d

theorem goesAlong_openTruncated (path : String) : (openTruncated path).GoesAlong AddsNoDate := by
  refine goesAlong_of_ends fun d => (ends_openTruncated d path).mono ?_ ?_
  · rintro place d' ⟨s, _, _, _, ht⟩
    exact ht.addsNoDate (Tree.addsNoDate_put _ _ _ _)
  · rintro kind d' ⟨hk, _⟩
    exact hk.addsNoDate

theorem goesAlong_writeAt (place : Location) (position : Nat) (data : List UInt8) :
    (writeAt place position data).GoesAlong AddsNoDate := by
  refine goesAlong_of_ends fun d => (ends_writeAt d place position data).mono ?_ ?_
  · exact fun _ d' ht => ht.addsNoDate (Tree.addsNoDate_edited _ _ _)
  · exact fun _ d' h => h.1.addsNoDate

theorem goesAlong_setLength (place : Location) (length : Nat) :
    (setLength place length).GoesAlong AddsNoDate := by
  refine goesAlong_of_ends fun d => (ends_setLength d place length).mono ?_ ?_
  · exact fun _ d' h => h.2.addsNoDate (Tree.addsNoDate_edited _ _ _)
  · exact fun _ d' h => h.1.addsNoDate

theorem goesAlong_createTemporary (folder : String) :
    (createTemporary folder).GoesAlong AddsNoDate := by
  refine goesAlong_of_ends fun d => (ends_createTemporary d folder).mono ?_ ?_
  · exact fun _ d' h => h.2.1.addsNoDate (Tree.addsNoDate_put _ _ _ _)
  · exact fun _ d' h => h.1.addsNoDate

theorem goesAlong_dropTemporary (place : Location) :
    (dropTemporary place).GoesAlong AddsNoDate :=
  goesAlong_of_ends fun _ => ends_dropTemporary fun _ ht =>
    ht.addsNoDate (Tree.addsNoDate_erase _ _)

theorem goesAlong_remove (path : String) : (remove path).GoesAlong AddsNoDate := by
  refine goesAlong_of_ends fun d => (ends_remove d path).mono ?_ ?_
  · rintro _ d' ⟨place, e, _, _, ht⟩
    exact ht.addsNoDate (Tree.addsNoDate_erase _ _)
  · exact fun _ d' h => h.1.addsNoDate

end Disk

/-! ### Outputs -/

namespace Writer

variable {d d' : Disk} {place : Location}

/-- A temporary file has no date, and nothing else has got one. -/
def Undated (d : Disk) (temporary : Location) (d' : Disk) : Prop :=
  d.AddsNoDate d' ∧ ∃ content mode, d'.tree.get? temporary = some (.file content mode none)

theorem Undated.kept {d'' : Disk} (h : Undated d place d') (hk : d'.Kept d'') :
    Undated d place d'' := by
  obtain ⟨hd, content, mode, hget⟩ := h
  exact ⟨chains_addsNoDate.trans hd hk.addsNoDate, content, mode, hk.tree ▸ hget⟩

theorem Undated.put {d'' : Disk} {content : List UInt8} {mode : Nat} (h : Undated d place d')
    (ht : d'.Turned (d'.tree.put place (.file content mode none)) d'') : Undated d place d'' := by
  obtain ⟨hd, _, _, hget⟩ := h
  refine ⟨chains_addsNoDate.trans hd (ht.addsNoDate (Tree.addsNoDate_put _ _ _ _)),
    content, mode, ?_⟩
  rw [ht.tree]
  exact Tree.get?_put_self _ _ (Tree.ne_nil_of_file hget)

/-- **A temporary file that is filled and moved to a path** takes no date there. -/
theorem Undated.ends_fillAndRename (h : Undated d place d') (path : String) (bytes : List UInt8) :
    (fillAndRename place path bytes).Ends d' (fun _ d'' => d.AddsNoDate d'')
      fun _ d'' => d.AddsNoDate d'' := by
  have hmove {d' : Disk} (h : Undated d place d') :
      (rename place path).Ends d' (fun _ d'' => d.AddsNoDate d'')
        fun _ d'' => d.AddsNoDate d'' := by
    obtain ⟨hd, content, mode, hget⟩ := h
    refine (ends_rename hget path).mono ?_ ?_
    · rintro _ d'' ⟨_, s, _, _, ht⟩
      refine chains_addsNoDate.trans hd (ht.addsNoDate ?_)
      exact (Tree.addsNoDate_erase _ _).trans (Tree.addsNoDate_put _ _ _ _)
    · exact fun kind d'' hk => chains_addsNoDate.trans hd hk.1.addsNoDate
  have hfill : (if !bytes.isEmpty then writeAt place 0 bytes else pure ()).Ends d'
      (fun _ d'' => Undated d place d'') fun _ d'' => d.AddsNoDate d'' := by
    split
    · refine (ends_writeAt d' place 0 bytes).mono ?_ ?_
      · intro _ d'' ht
        have ⟨_, content, mode, hget⟩ := h
        rw [Tree.edited_eq hget] at ht
        exact h.put ht
      · exact fun kind d'' hk => (h.kept hk.1).1
    · exact h
  unfold fillAndRename
  rw [ends_when]
  refine hfill.mono ?_ fun _ _ hd => hd
  intro _ d₁ h₁
  rw [ends_bind]
  refine (ends_attempt d₁).mono ?_ fun _ d₂ hk => (h₁.kept hk.1).1
  intro _ d₂ hk
  have h₂ := h₁.kept hk
  rw [ends_bind, ends_mode?]
  split
  · have ⟨_, content, mode, hget⟩ := h₂
    rw [ends_bind]
    exact (ends_setMode hget _).mono (fun _ d₃ ht => hmove (h₂.put ht))
      fun _ d₃ hk => (h₂.kept hk.1).1
  · exact hmove h₂

theorem goesAlong_replace (path : String) (bytes : List UInt8) :
    (replace path bytes).GoesAlong Disk.AddsNoDate := by
  refine goesAlong_of_ends fun d => ?_
  unfold replace
  rw [ends_bind]
  refine (ends_createTemporary d _).mono ?_ fun kind d₁ h => h.1.addsNoDate
  rintro temporary d₁ ⟨hnone, ht, _⟩
  have h₁ : Undated d temporary d₁ := by
    refine ⟨ht.addsNoDate (Tree.addsNoDate_put _ _ _ _), [], privateMode, ?_⟩
    rw [ht.tree]
    exact Tree.get?_put_self _ _ (Tree.ne_nil_of_none hnone)
  rw [ends_tryCatch]
  refine (h₁.ends_fillAndRename path bytes).mono (fun _ _ hd => hd) fun kind d₂ h₂ => ?_
  rw [ends_bind]
  exact ends_dropTemporary fun d₃ ht => chains_addsNoDate.trans h₂
    (ht.addsNoDate (Tree.addsNoDate_erase _ _))

/-- Nothing is dated by an action on an output. -/
def AddsNoDate (s s' : Writer × Disk) : Prop :=
  s.2.AddsNoDate s'.2

theorem chains_addsNoDate : Chains Writer.AddsNoDate :=
  Disk.chains_addsNoDate.on _

theorem goesAlong_onFiles {act : FileAct α} (h : act.GoesAlong Disk.AddsNoDate) :
    (onFiles act).GoesAlong AddsNoDate :=
  goesAlong_within h fun _ _ hd => hd

/-- A spool is in no tree. -/
theorem goesAlong_onSpool {spool : Spool} {act : SpoolAct α}
    (h : ∀ s d, act.Ends (s, d) (fun _ t => d.Kept t.2) fun _ t => d.Kept t.2) :
    (onSpool spool act).GoesAlong AddsNoDate := by
  refine goesAlong_of_ends fun ⟨w, d⟩ => ?_
  rw [ends_onSpool]
  exact (h spool d).mono (fun _ _ hk => hk.addsNoDate) fun _ _ hk => hk.addsNoDate

theorem goesAlong_place (file : Location) (position : Nat) :
    (Writer.place file position).GoesAlong AddsNoDate :=
  fun s => chains_addsNoDate.refl s

theorem goesAlong_write (data : List UInt8) : (write data).GoesAlong AddsNoDate := by
  refine chains_addsNoDate.bind chains_addsNoDate.refl fun ⟨w, _⟩ => ?_
  dsimp only
  split
  · refine goesAlong_ite (chains_addsNoDate.pure _) ?_
    exact chains_addsNoDate.bind (goesAlong_onFiles (goesAlong_writeAt _ _ _)) fun _ =>
      goesAlong_place _ _
  · exact goesAlong_onSpool fun s d => (Spool.ends_write s d data).mono (fun _ _ h => h.kept)
      fun _ _ h => h.1.kept

theorem goesAlong_seek (target : SeekFrom) : (seek target).GoesAlong AddsNoDate := by
  refine chains_addsNoDate.bind chains_addsNoDate.refl fun ⟨w, _⟩ => ?_
  dsimp only
  split
  · refine chains_addsNoDate.bind (goesAlong_onFiles goesAlong_attempt) fun _ => ?_
    refine chains_addsNoDate.bind chains_addsNoDate.refl fun ⟨_, d⟩ => ?_
    dsimp only
    split
    · exact chains_addsNoDate.throw _
    · exact chains_addsNoDate.bind (goesAlong_place _ _) fun _ => chains_addsNoDate.pure _
  · exact goesAlong_onSpool fun s d => (Spool.ends_seek s d target).mono (fun _ _ h => h.2.kept)
      fun _ _ h => h.1.kept

theorem goesAlong_digest : digest.GoesAlong AddsNoDate := by
  refine chains_addsNoDate.bind (goesAlong_seek _) fun _ => ?_
  refine chains_addsNoDate.bind chains_addsNoDate.refl fun ⟨w, _⟩ => ?_
  dsimp only
  split
  · refine chains_addsNoDate.bind (goesAlong_onFiles goesAlong_attempt) fun _ => ?_
    refine chains_addsNoDate.bind chains_addsNoDate.refl fun ⟨_, d⟩ => ?_
    exact chains_addsNoDate.bind (goesAlong_place _ _) fun _ => chains_addsNoDate.pure _
  · refine chains_addsNoDate.bind ?_ fun _ => chains_addsNoDate.pure _
    exact goesAlong_onSpool fun s d => (Spool.ends_readAll s d).mono (fun _ _ h => h.2.kept)
      fun _ _ h => h.1.kept

theorem goesAlong_commit : commit.GoesAlong AddsNoDate := by
  refine chains_addsNoDate.bind chains_addsNoDate.refl fun ⟨w, _⟩ => ?_
  dsimp only
  split
  · exact chains_addsNoDate.bind (goesAlong_onFiles goesAlong_attempt) fun _ =>
      chains_addsNoDate.pure _
  · refine chains_addsNoDate.bind ?_ fun bytes =>
      chains_addsNoDate.bind (goesAlong_onFiles (goesAlong_replace _ _)) fun _ =>
        chains_addsNoDate.pure _
    refine goesAlong_onSpool fun s d => ?_
    rw [ends_bind]
    refine (Spool.ends_seek s d _).mono (fun _ t h => ?_) fun _ _ h => h.1.kept
    exact (Spool.ends_readAll t.1 t.2).mono (fun _ _ h' => h.2.kept.trans h'.2.kept)
      fun _ _ h' => h.2.kept.trans h'.1.kept

theorem goesAlong_discard (w : Writer) : w.discard.GoesAlong Disk.AddsNoDate := by
  unfold discard
  split
  · exact goesAlong_remove _
  · exact Disk.chains_addsNoDate.pure _

theorem goesAlong_openAt (destination : Destination) (seed : String) (length : UInt64)
    (limit : Nat) : (openAt destination seed length limit).GoesAlong Disk.AddsNoDate := by
  cases destination with
  | file path =>
    refine Disk.chains_addsNoDate.bind (goesAlong_openTruncated path) fun file => ?_
    exact Disk.chains_addsNoDate.bind (goesAlong_setLength _ _) fun _ =>
      Disk.chains_addsNoDate.pure _
  | replaceSeed =>
    refine goesAlong_of_ends fun d => ?_
    refine (ends_openAt_replaceSeed d seed length limit).mono ?_ ?_
    · exact fun _ _ h => h.1.addsNoDate
    · exact fun _ _ h => h.1.addsNoDate

end Writer

/-! ### Jobs -/

namespace World

variable {w : World}

/-- Nothing is dated by a step of work. -/
def AddsNoDate (w w' : World) : Prop :=
  w.disk.AddsNoDate w'.disk

theorem chains_addsNoDate : Chains AddsNoDate :=
  Disk.chains_addsNoDate.on _

theorem goesAlong_onDisk {act : FileAct α} (h : act.GoesAlong Disk.AddsNoDate) :
    (onDisk act).GoesAlong AddsNoDate :=
  goesAlong_within h fun _ _ hd => hd

/-- What leaves the disk alone dates nothing. -/
theorem goesAlong_of_leaves {ε : Type} {act : Act World ε α} (h : act.Leaves (·.disk)) :
    act.GoesAlong AddsNoDate := by
  intro w
  have hdisk : (runOn act w).2.disk = w.disk := h w
  rw [AddsNoDate, hdisk]
  exact Disk.chains_addsNoDate.refl _

end World

namespace Bench

/-- Nothing is dated by a step of work with an output. -/
def AddsNoDate (b b' : Bench) : Prop :=
  b.2.AddsNoDate b'.2

theorem goesAlong_onWorld {act : Work α} (h : act.GoesAlong World.AddsNoDate) :
    (onWorld act).GoesAlong AddsNoDate :=
  goesAlong_within h fun _ _ hw => hw

theorem goesAlong_onWriter {act : WriterAct α} (h : act.GoesAlong Writer.AddsNoDate) :
    (onWriter act).GoesAlong AddsNoDate :=
  goesAlong_within h fun _ _ hs => hs

theorem goesAlong_tried {act : FileAct Unit} (h : act.GoesAlong Disk.AddsNoDate)
    (message : String) (describe : IoKind → String) :
    (Job.attempt message describe act).GoesAlong World.AddsNoDate :=
  goesAlong_of_ends fun w => Job.ends_attempt (w.disk.AddsNoDate)
    (h.ends w.disk) fun _ hw _ => hw

/-- **No step of filling and finishing an output dates a file.** -/
theorem admits_addsNoDate : Admits AddsNoDate where
  toChains := World.chains_addsNoDate.on _
  opens _ := goesAlong_onWorld (World.goesAlong_onDisk (goesAlong_openForReading _))
  reads _ _ _ := goesAlong_onWorld (World.goesAlong_onDisk (goesAlong_readAt _ _ _))
  seeks _ := goesAlong_onWriter
    (Writer.chains_addsNoDate.bind (Writer.goesAlong_seek _) fun _ => Writer.chains_addsNoDate.pure _)
  writes _ := goesAlong_onWriter (Writer.goesAlong_write _)
  digests := goesAlong_onWriter Writer.goesAlong_digest
  commits := goesAlong_onWriter Writer.goesAlong_commit
  discards _ _ w := goesAlong_onWorld (goesAlong_tried w.goesAlong_discard _ _)
  notes _ := goesAlong_onWorld (World.goesAlong_of_leaves (leaves_modify fun _ => rfl))

end Bench

namespace Job

theorem goesAlong_orAbandon {writer : Writer} {act : BenchAct α}
    (h : act.GoesAlong Bench.AddsNoDate) :
    (orAbandon writer act).GoesAlong World.AddsNoDate := by
  refine goesAlong_of_ends fun w => ?_
  refine (ends_orAbandon (h.ends (writer, w))).mono (fun _ _ hw => hw) ?_
  rintro (fault | _) _ ⟨b, hb, rfl⟩
  · -- an output that is given up is removed
    exact World.chains_addsNoDate.trans hb (b.1.goesAlong_discard b.2.disk)
  · exact hb

/-- **Filling an output dates nothing.** -/
theorem goesAlong_fill (job : Job) : job.fill.GoesAlong World.AddsNoDate := by
  have hR := World.chains_addsNoDate
  have hreuse := Bench.admits_addsNoDate.copyReuse job
  have hcount (n : Nat) : (World.count n).Leaves (·.disk) := World.leaves_count (fun _ _ _ => rfl) n
  have hdownload := Bench.admits_addsNoDate.downloadAll
    (fun n => Bench.goesAlong_onWorld (World.goesAlong_of_leaves (hcount n)))
    (fun _ _ _ _ b => hR.refl b.2)
    (fun _ => Bench.goesAlong_onWorld (World.goesAlong_of_leaves (leaves_modify fun _ => rfl)))
    (Bench.goesAlong_onWorld (World.goesAlong_of_leaves World.leaves_assertComplete)) job
  refine hR.bind hR.refl fun _ => hR.bind hR.refl fun origin => ?_
  refine hR.bind (World.goesAlong_onDisk (Writer.goesAlong_openAt _ _ _ _)) fun writer => ?_
  refine hR.bind (hR.tryCatch (goesAlong_orAbandon hreuse) fun stop => ?_) fun ⟨reused, writer⟩ => ?_
  · cases stop <;> exact hR.refl
  · exact hR.bind (goesAlong_orAbandon (hdownload origin)) fun _ => hR.pure _

/-- Where no date is wanted, finishing an output dates nothing. -/
theorem goesAlong_run (job : Job) (h : job.settings.preserveMtime = false) :
    job.run.GoesAlong World.AddsNoDate := by
  have hfinish : job.finish.GoesAlong Bench.AddsNoDate :=
    Bench.admits_addsNoDate.finish job fun _ _ _ hyes => by
      rw [h] at hyes
      cases hyes
  rw [run_eq]
  refine World.chains_addsNoDate.bind job.goesAlong_fill fun filled => ?_
  refine goesAlong_of_ends fun w => (ends_close (hfinish.ends (filled.2.2, w))).mono ?_ ?_
  · rintro summary w' ⟨_, _, _, _, writer, hw⟩
    exact hw
  · rintro cause w' ⟨writer, hw⟩
    exact hw

/-- **An output that cannot be finished is not dated**: dating it is the last step, and that step
does not fail. -/
theorem ends_finish_undated (job : Job) (b : Bench) :
    job.finish.Ends b (fun _ _ => True) fun _ b' => b.AddsNoDate b' := by
  have hadmits := Bench.admits_addsNoDate
  refine ends_finish b.AddsNoDate (fun _ => hadmits.refl b) (fun expected _ => ?_) fun b₁ h₁ => ?_
  · exact (hadmits.compare job expected).ends b
  · refine ends_settle (fun _ _ => True) ?_ fun _ d _ h => ends_always _ d h
    exact (hadmits.commits.ends b₁).mono (fun _ _ _ => trivial) fun _ _ h => hadmits.trans h₁ h

/-- **A job that fails dates nothing.** -/
theorem ends_run_undated (job : Job) (w : World) :
    job.run.Ends w (fun summary _ => summary.isVerified = job.expected.isSome)
      fun _ w' => w.AddsNoDate w' := by
  rw [run_eq, ends_bind]
  refine (job.goesAlong_fill.ends w).mono ?_ fun _ _ h => h
  intro filled w₁ h₁
  refine (ends_close (job.ends_finish_undated (filled.2.2, w₁))).mono ?_ ?_
  · rintro summary w₂ ⟨_, _, _, hverified, _⟩
    exact hverified
  · rintro cause w₂ ⟨writer, h₂⟩
    exact World.chains_addsNoDate.trans h₁ h₂

end Job

/-! ### Tasks -/

namespace Fetched

theorem goesAlong_onDisk {act : FileAct α} (h : act.GoesAlong Disk.AddsNoDate) :
    (onDisk act).GoesAlong World.AddsNoDate :=
  goesAlong_within h fun _ _ hd => hd

theorem goesAlong_writePieces (file : Location) (position : Nat) (pieces : List (List UInt8)) :
    (writePieces file position pieces).GoesAlong Disk.AddsNoDate := by
  induction pieces generalizing position with
  | nil => exact chains_addsNoDate.pure _
  | cons piece rest ih => exact chains_addsNoDate.bind (goesAlong_writeAt _ _ _) fun _ => ih _

theorem goesAlong_release (f : Fetched) : f.release.GoesAlong World.AddsNoDate := by
  unfold release
  split
  · exact goesAlong_onDisk (goesAlong_dropTemporary _)
  · exact World.chains_addsNoDate.pure _

theorem goesAlong_keep (location : String) (body : Http.Body) :
    (keep location body).GoesAlong World.AddsNoDate := by
  have hR := World.chains_addsNoDate
  have hdrop (file : Location) := goesAlong_onDisk (goesAlong_dropTemporary file)
  refine hR.bind (goesAlong_onDisk (goesAlong_createTemporary _)) fun file => ?_
  refine hR.bind (hR.tryCatch (goesAlong_onDisk (goesAlong_writePieces _ _ _)) fun stop => ?_)
    fun _ => ?_
  · exact hR.bind (hdrop file) fun _ => hR.throw _
  · exact goesAlong_ite (hR.bind (hdrop file) fun _ => hR.bind (hR.failed _) fun _ => hR.pure _)
      (hR.pure _)

/-- **Getting a descriptor dates nothing.** -/
theorem goesAlong_ofLocation (client : Http.Client) (location : String) :
    (ofLocation client location).GoesAlong World.AddsNoDate := by
  have hR := World.chains_addsNoDate
  have hpath (path : String) : (ofPath location path).GoesAlong World.AddsNoDate := by
    refine hR.when (hR.failed _) (hR.bind hR.refl fun w => ?_)
    refine hR.bind (goesAlong_onDisk (goesAlong_isFile _)) fun isThere => ?_
    exact goesAlong_ite (hR.pure _) (hR.failed _)
  have hremote (url : Url) : (remote client location url).GoesAlong World.AddsNoDate := by
    refine hR.bind (fun w => hR.refl w) fun answer => hR.when (hR.failed _) ?_
    exact hR.bind (goesAlong_keep _ _) fun file => hR.pure _
  unfold ofLocation
  split
  · exact hpath _
  · refine goesAlong_ite (hremote _) (goesAlong_ite ?_ (goesAlong_ite (hR.failed _) (hpath _)))
    unfold ofFileUrl
    split
    · exact hR.failed _
    · split
      · exact hpath _
      · exact hR.failed _

end Fetched

namespace SyncTask

variable {task : SyncTask}

/-- The end of a task: its job is run, and the digest is compared unless it has been. -/
def concluding (order : Order) (job : Job) : SyncAct Outcome := do
  let summary ← rebuild job.run
  if !summary.isVerified then confirm summary.path order.digest
  pure ⟨order.length, order.url, order.digest, summary⟩

/-- **Around its job, a task dates nothing.** What is to be shown of the end of the task may depend
on whether it answers. -/
theorem ends_run_around (task : SyncTask) (w : World) (answers fails : Prop)
    (h : ∀ client order plan destination (w₁ : World),
      (concluding order (task.job client order plan destination)).Ends w₁
        (fun _ w₂ => answers → w₁.AddsNoDate w₂) fun _ w₂ => fails → w₁.AddsNoDate w₂) :
    task.run.Ends w (fun _ w' => answers → w.AddsNoDate w') fun _ w' => fails → w.AddsNoDate w' := by
  have hR := World.chains_addsNoDate
  have hrest (client : Http.Client) (fetched : Fetched) (w : World) :
      (task.runWith client fetched).Ends w (fun _ w' => answers → w.AddsNoDate w')
        fun _ w' => fails → w.AddsNoDate w' := by
    unfold runWith
    rw [ends_bind, ends_rebuild]
    refine (ends_order fetched w).mono ?_ fun _ _ ⟨hi, _⟩ _ => hi.disk.addsNoDate
    rintro order w₁ ⟨hi, _⟩
    rw [ends_bind, ends_rebuild]
    refine (ends_plan task.planner fetched.path task.seed w₁).mono ?_ fun _ _ hi' _ =>
      (hi.disk.trans hi'.disk).addsNoDate
    intro plan w₂ hi'
    have hidle : w.AddsNoDate w₂ := (hi.disk.trans hi'.disk).addsNoDate
    rw [ends_bind, Fetched.ends_onDisk, ends_forSeed, ends_bind, ends_modify]
    exact (h client order plan _ _).mono (fun _ _ hw ha => hR.trans hidle (hw ha))
      fun _ _ hw hf => hR.trans hidle (hw hf)
  unfold run
  rw [ends_bind, ends_ofExcept]
  split
  · rw [ends_bind]
    refine ((Fetched.goesAlong_ofLocation _ _).ends w).mono ?_ fun _ _ hw _ => hw
    intro fetched w₁ h₁
    rw [ends_bind, ends_tryCatch]
    refine (hrest _ fetched w₁).mono ?_ ?_
    · intro outcome w₂ h₂
      rw [ends_bind]
      refine (((fetched.goesAlong_release).ends w₂).and (Fetched.ends_release fetched w₂)).mono ?_
        fun _ _ hno => hno.2.elim
      exact fun _ w₃ h₃ ha => hR.trans h₁ (hR.trans (h₂ ha) h₃.1)
    · intro cause w₂ h₂
      rw [ends_bind]
      refine ((fetched.goesAlong_release).ends w₂).mono ?_ ?_
      · exact fun _ w₃ h₃ hf => hR.trans h₁ (hR.trans (h₂ hf) h₃)
      · exact fun _ w₃ h₃ hf => hR.trans h₁ (hR.trans (h₂ hf) h₃)
  · exact fun _ => hR.refl w

/-- **A task for which no dates are wanted dates nothing.** -/
theorem goesAlong_run (h : task.settings.reconstruction.preserveMtime = false) :
    task.run.GoesAlong World.AddsNoDate := by
  have hR := World.chains_addsNoDate
  refine goesAlong_of_ends fun w => ?_
  refine (task.ends_run_around w True True ?_).mono
    (fun _ _ hw => hw trivial) fun _ _ hw => hw trivial
  intro client order plan destination w₁
  have hjob := (task.job client order plan destination).goesAlong_run h
  have hconfirm (path expected : String) : (confirm path expected).GoesAlong World.AddsNoDate :=
    goesAlong_of_ends fun w => (ends_confirm path expected w).mono (fun _ _ h => h.1.addsNoDate)
      fun _ _ h => h.1.addsNoDate
  have hall : (concluding order (task.job client order plan destination)).GoesAlong
      World.AddsNoDate :=
    hR.bind (goesAlong_within hjob fun _ _ hw => hw) fun summary =>
      hR.when (hconfirm _ _) (hR.pure _)
  exact (hall.ends w₁).mono (fun _ _ hw _ => hw) fun _ _ hw _ => hw

/-- **Under the strict policy, a task that fails dates nothing.** Once its job has succeeded it has
no digest left to compare. -/
theorem ends_run_undated (task : SyncTask) (w : World)
    (h : task.settings.reconstruction.integrityPolicy = .strict) :
    task.run.Ends w (fun _ _ => True) fun _ w' => w.AddsNoDate w' := by
  refine (task.ends_run_around w False True ?_).mono
    (fun _ _ _ => trivial) fun _ _ hw => hw trivial
  intro client order plan destination w₁
  have hexpected : (task.job client order plan destination).expected.isSome = true := by
    unfold job
    rw [h]
    rfl
  unfold concluding
  rw [ends_bind, ends_rebuild]
  refine ((task.job client order plan destination).ends_run_undated w₁).mono ?_
    fun _ _ hw _ => hw
  intro summary w₂ hverified
  rw [hverified, hexpected]
  exact fun hno => hno.elim

end SyncTask

end RangeSync
