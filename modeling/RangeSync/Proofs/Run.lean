import RangeSync.Proofs.Finish

/-!
# A run of a job

The two halves of a run put together, for an output that replaces the seed and for an output of its
own.

* `RangeSync.Job.Achieves` – what a run that succeeds has achieved, whatever the server answered;
* `RangeSync.Job.ends_run_of_staged` – a run that replaces its seed: **it commits the complete
  output or it leaves no trace**;
* `RangeSync.Job.ends_run_of_file` – a run with an output of its own: it fills the file that the
  path leads to, or it breaks off, or it cannot be finished.

Both say as well that a run succeeds if nothing is in its way (`RangeSync.Job.CanRun`).
-/

namespace RangeSync

open Act Disk

/-- A world with a disk and nothing else: no server can be reached, and no program starts. -/
def World.ofDisk (disk : Disk) : World where
  disk
  net := ⟨.unreachable, []⟩
  programs := ⟨fun _ _ => .error .notFound, []⟩
  progress := none
  log := []
  isVerbose := false

namespace Job

variable {job : Job} {w : World} {b b' : Bench}

/-- Finishing an output inside of a run. -/
theorem ends_close {filled : UInt64 × UInt64 × Writer} {post : String → Bench → Prop}
    {fail : Stop RebuildFault → Bench → Prop}
    (h : job.finish.Ends (filled.2.2, w) post fail) :
    (job.close filled).Ends w
      (fun summary w' => summary.reused = filled.1 ∧ summary.downloaded = filled.2.1 ∧
        summary.requests = job.plan.download.length ∧
        summary.isVerified = job.expected.isSome ∧ ∃ writer, post summary.path (writer, w'))
      fun cause w' => ∃ writer, fail cause (writer, w') := by
  unfold close
  rw [ends_bind]
  refine (ends_withWriter h).mono ?_ fun _ _ hno => hno.elim
  rintro ⟨result, writer⟩ w' hresult
  rcases result with cause | path
  · exact ⟨writer, hresult⟩
  · exact ⟨rfl, rfl, rfl, rfl, writer, hresult⟩

/-- A run goes on with the output that it has filled. -/
theorem runOn_run_of_filled {filled : UInt64 × UInt64 × Writer} {w' : World}
    (hfill : runOn job.fill w = (.ok filled, w')) :
    runOn job.run w =
      ((runOn job.finish (filled.2.2, w')).1.map fun path =>
          ⟨path, filled.1, filled.2.1, job.plan.download.length, job.expected.isSome⟩,
        (runOn job.finish (filled.2.2, w')).2.2) := by
  rw [runOn_run_closing hfill]
  unfold close withWriter
  rw [runOn_bind, runOn_bind, runOn_get]
  dsimp only
  rcases runOn job.finish (filled.2.2, w') with ⟨cause | path, b'⟩ <;> rfl

/-- **What a run has achieved** that answers with a summary, and the bytes of its output. -/
structure Achieves (job : Job) (w : World) (summary : Summary) (bytes : List UInt8) : Prop where
  path : summary.path = job.path
  reused : summary.reused.toNat = job.plan.reused
  downloaded : summary.downloaded.toNat = job.plan.downloaded
  requests : summary.requests = job.plan.download.length
  isVerified : summary.isVerified = job.expected.isSome
  isFor : job.plan.IsFor job.length
  makes : job.plan.Makes job.length.toNat bytes
  seeded : ∀ place seed, w.disk.FileAt job.seed place seed → job.IsApartFrom w.disk place →
    job.plan.MakesFrom seed job.length.toNat bytes
  digest : ∀ expected, job.expected = some expected → Digest.sha1Hex bytes = expected
  exact : ∀ place seed patches, job.CanFill w place seed patches →
    bytes = patched (List.replicate job.length.toNat 0)
      (job.plan.reuse.map (·.slice seed) ++ patches)

/-- The output has the length of the target. -/
theorem Achieves.length {summary : Summary} {bytes : List UInt8}
    (h : job.Achieves w summary bytes) : bytes.length = job.length.toNat :=
  h.isFor.length_of_makes h.makes

/-- **Nothing is in the way of a run** that puts a file together. -/
structure CanRun (job : Job) (w : World) (place : Location) (seed : List UInt8)
    (patches : List Patch) : Prop where
  fill : job.CanFill w place seed patches
  supplant : job.destination = .replaceSeed → Writer.CanSupplant w.disk job.seed
  digest : ∀ expected, job.expected = some expected →
    Digest.sha1Hex (patched (List.replicate job.length.toNat 0)
      (job.plan.reuse.map (·.slice seed) ++ patches)) = expected

/-! ### Outputs that replace the seed -/

/-- A staged output is nowhere in the tree, which is as it was. -/
theorem Opens.staged (h : job.Opens w b) (hdest : job.destination = .replaceSeed)
    (hc : Bench.Carries b b') :
    b'.1.site = none ∧ b'.1.path = job.seed ∧ Writer.Spares w.disk b'.2.disk := by
  obtain ⟨hsite, hk⟩ := h.kept hdest
  have hpath : b.1.path = job.seed := h.path.trans (path_of_replaceSeed hdest)
  have hedits := hc.writer.disk
  rw [hsite] at hedits
  exact ⟨hc.site.trans hsite, hc.writer.path.trans hpath,
    (Writer.spares_of_kept hk).trans (Writer.spares_of_edits hedits)⟩

/-- Giving up a staged output changes nothing. -/
theorem discarded_of_staged (h : b.1.site = none) : b.discarded = b.2 := by
  unfold Bench.discarded
  rw [Writer.discard_of_staged h]
  rfl

/-- **A run with a staged output that breaks off leaves no trace.** -/
theorem Aborts.spares {cause : Stop RebuildFault} {w' : World} (h : job.Aborts w cause w')
    (hdest : job.destination = .replaceSeed) : Writer.Spares w.disk w'.disk := by
  cases h with
  | early hk => exact Writer.spares_of_kept hk
  | unsized hfile =>
    rw [hdest] at hfile
    cases hfile
  | abandoned ho hc =>
    obtain ⟨hsite, _, hs⟩ := ho.staged hdest hc
    rw [discarded_of_staged hsite]
    exact hs
  | overflowed ho hc _ | crashed ho hc => exact (ho.staged hdest hc).2.2

/-- **The bytes are a complete output** of the job on a disk: every range of the plan is there as a
whole, what is reused is what the seed has, and the length is that of the target. -/
structure Completes (job : Job) (d : Disk) (bytes : List UInt8) : Prop where
  makes : job.plan.Makes job.length.toNat bytes
  seeded : ∀ place seed, d.FileAt job.seed place seed →
    job.plan.MakesFrom seed job.length.toNat bytes
  length : bytes.length = job.length.toNat

theorem Fills.completes (h : job.Fills w b) (hdest : job.destination = .replaceSeed) :
    job.Completes w.disk b.bytes :=
  ⟨h.makes, fun place _ hseed => h.makesFrom hseed (isApartFrom_of_replaceSeed hdest _ place),
    h.isFor.length_of_makes h.makes⟩

/-- How a run that replaces its seed fails. -/
inductive FailsInPlace (job : Job) (w : World) (cause : Stop RebuildFault) (w' : World) : Prop
  /-- There is no trace of it. -/
  | spared : Writer.Spares w.disk w'.disk → FailsInPlace job w cause w'
  /-- The complete output is there, with another digest than the expected one. -/
  | kept {bytes : List UInt8} {expected : String} : job.Completes w.disk bytes →
      Writer.Commits w.disk job.seed bytes w'.disk → job.expected = some expected →
      Digest.sha1Hex bytes ≠ expected → job.settings.integrityPolicy = .advisory →
      cause = .failed (.digest expected (Digest.sha1Hex bytes)) → FailsInPlace job w cause w'

/-- **A run that replaces its seed** commits the complete output, or it leaves no trace – unless the
output is kept with another digest than the expected one. -/
theorem ends_run_of_staged (job : Job) (w : World) (hdest : job.destination = .replaceSeed) :
    job.run.Ends w
      (fun summary w' => ∃ bytes, job.Achieves w summary bytes ∧ job.Completes w.disk bytes ∧
        Writer.Commits w.disk job.seed bytes w'.disk)
      fun cause w' => job.FailsInPlace w cause w' ∧
        ∀ place seed patches, ¬ job.CanRun w place seed patches := by
  rw [run_eq, ends_bind]
  refine (job.ends_fill w).mono ?_ ?_
  · rintro ⟨reused, downloaded, writer⟩ w₁ ⟨hreused, hdownloaded, hfills⟩
    obtain ⟨b₁, hopens, hcarries⟩ := hfills.opened
    obtain ⟨hsite, hpath, hspares⟩ := hopens.staged hdest hcarries
    -- filling a staged output changes nothing that finishing it depends on
    have hcan {place : Location} {seed : List UInt8} {patches : List Patch}
        (hc : job.CanRun w place seed patches) : job.CanFinish (writer, w₁) := by
      constructor
      · exact hc.fill.obliging.congr hspares.1.refuses
      · intro _
        rw [hpath]
        exact (hc.supplant hdest).of_spares hspares
      · intro expected he
        rw [hfills.exact hc.fill]
        exact hc.digest expected he
    refine (ends_close (job.ends_finish_of_staged (writer, w₁) hsite)).mono ?_ ?_
    · rintro summary w' ⟨hr, hd, hrequests, hverified, writer', hp, hcommit, hdigest⟩
      refine ⟨Bench.bytes (writer, w₁), ?_, hfills.completes hdest, ?_⟩
      · exact ⟨hp.trans (hcarries.writer.path.trans hopens.path), hr ▸ hreused, hd ▸ hdownloaded,
          hrequests, hverified, hfills.isFor, hfills.makes, fun _ _ => hfills.makesFrom, hdigest,
          fun _ _ _ hc => hfills.exact hc⟩
      · rw [← hpath]
        exact hspares.commits hcommit
    · rintro cause w' ⟨writer', hfails, hno⟩
      refine ⟨?_, fun place seed patches hc => hno (hcan hc)⟩
      rcases hfails with ⟨hs, _⟩ | ⟨⟨expected, he, hne, hpolicy, hcause⟩, hcommit⟩
      · exact .spared (hspares.trans hs)
      · rw [hpath] at hcommit
        exact .kept (hfills.completes hdest) (hspares.commits hcommit) he hne hpolicy hcause
  · rintro cause w' ⟨haborts, hno⟩
    exact ⟨.spared (haborts.spares hdest), fun place seed patches hc => hno _ _ _ hc.fill⟩

/-! ### Outputs of their own -/

/-- **A filled output of its own is found at its path**, and off its place the tree is as it was. -/
theorem Opens.leadsTo {path : String} (h : job.Opens w b) (hdest : job.destination = .file path)
    (hc : Bench.Carries b b') :
    ∃ s, w.disk.tree.walk w.disk.cwd true path = .ok s ∧ s.IsOpen ∧ b'.1.path = path ∧
      LeadsTo b' s.place ∧ Along (Tree.SameOff s.place w.disk.tree) w.disk b'.2.disk := by
  have hpath : b'.1.path = path := hc.writer.path.trans (h.path.trans (path_of_file hdest))
  obtain ⟨s, hw, hopen, hsite, hzeros, halong⟩ := h.fresh hdest
  have hsite' : b'.1.site = some s.place := hc.site.trans hsite
  have hoff := halong.tree (Tree.SameOff.refl _ _)
  have hall : Along (Tree.SameOff s.place w.disk.tree) w.disk b'.2.disk := by
    refine halong.trans (hc.writer.disk.mono fun t ht => ?_)
    rw [hsite] at ht
    exact hoff.trans ht.sameOff
  -- the file was full of zeros when it was opened, and it is still a file
  obtain ⟨content, time, hget⟩ := hc.writer.tree.file s.place _ _ _ hsite hzeros
  have hbytes : b'.bytes = content := by
    rw [Bench.bytes, Writer.bytes_of_site hsite']
    exact bytesAt_eq hget
  refine ⟨s, hw, hopen, hpath, ⟨hsite', modeFor s, time, ?_⟩, hall⟩
  rw [hpath, hall.cwd, hbytes]
  exact Tree.walk_refilled hw hopen (hall.tree (Tree.SameOff.refl _ _)) hget

/-- How a run with an output of its own fails. -/
inductive FailsApart (job : Job) (w : World) (cause : Stop RebuildFault) (w' : World) : Prop
  /-- The output was not filled. -/
  | unfilled : job.Aborts w cause w' → FailsApart job w cause w'
  /-- The output was filled, and could not be finished. -/
  | unfinished {b₁ b b' : Bench} : job.Opens w b₁ → Bench.Carries b₁ b →
      job.plan.IsFor job.length → job.plan.Makes job.length.toNat b.bytes →
      job.FailsDirect b cause b' → b'.2 = w' → FailsApart job w cause w'

/-- **A run with an output of its own** fills the file that the path leads to, and nothing else is
different then. -/
theorem ends_run_of_file (job : Job) (w : World) {path : String}
    (hdest : job.destination = .file path) :
    job.run.Ends w
      (fun summary w' => ∃ bytes s, job.Achieves w summary bytes ∧
        w.disk.tree.walk w.disk.cwd true path = .ok s ∧ s.IsOpen ∧
        w'.disk.FileAt path s.place bytes ∧
        Along (Tree.SameOff s.place w.disk.tree) w.disk w'.disk)
      fun cause w' => job.FailsApart w cause w' ∧
        ∀ place seed patches, ¬ job.CanRun w place seed patches := by
  rw [run_eq, ends_bind]
  refine (job.ends_fill w).mono ?_ ?_
  · rintro ⟨reused, downloaded, writer⟩ w₁ ⟨hreused, hdownloaded, hfills⟩
    obtain ⟨b₁, hopens, hcarries⟩ := hfills.opened
    obtain ⟨s, hw, hopen, hpath, hleads, halong⟩ := hopens.leadsTo hdest hcarries
    have hcan {place : Location} {seed : List UInt8} {patches : List Patch}
        (hc : job.CanRun w place seed patches) : job.CanFinish (writer, w₁) := by
      constructor
      · exact hc.fill.obliging.congr halong.refuses
      · intro hnone
        rw [hleads.1] at hnone
        cases hnone
      · intro expected he
        rw [hfills.exact hc.fill]
        exact hc.digest expected he
    refine (ends_close (job.ends_finish_of_site (writer, w₁) hleads)).mono ?_ ?_
    · rintro summary w' ⟨hr, hd, hrequests, hverified, writer', hp, hstays, hdigest⟩
      refine ⟨Bench.bytes (writer, w₁), s, ?_, hw, hopen, ?_, ?_⟩
      · exact ⟨hp.trans (hcarries.writer.path.trans hopens.path), hr ▸ hreused, hd ▸ hdownloaded,
          hrequests, hverified, hfills.isFor, hfills.makes, fun _ _ => hfills.makesFrom, hdigest,
          fun _ _ _ hc => hfills.exact hc⟩
      · have hfile := hstays.file
        rwa [hpath] at hfile
      · refine halong.trans (hstays.along.mono fun t ht => ?_)
        exact (halong.tree (Tree.SameOff.refl _ _)).trans ht
    · rintro cause w' ⟨writer', hfails, hno⟩
      refine ⟨?_, fun place seed patches hc => hno (hcan hc)⟩
      exact .unfinished hopens hcarries hfills.isFor hfills.makes hfails rfl
  · rintro cause w' ⟨haborts, hno⟩
    exact ⟨.unfilled haborts, fun place seed patches hc => hno _ _ _ hc.fill⟩

end Job
end RangeSync
