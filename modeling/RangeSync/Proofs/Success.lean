import RangeSync.Proofs.Fetch
import RangeSync.Proofs.Outside
import RangeSync.Proofs.Run

/-!
# When a run succeeds

`RangeSync.Job.CanRun` is enough for a run to succeed, but it asks for more than has to be: for a
seed that is not where the output goes, and for a target that a file can hold. Neither is needed. A
seed that is the output is a row of zeros, which copying does not change; and an output that stays
in memory may be longer than any file. Here is what is enough and needed as well.

How the output is opened does not depend on the ranges of the plan. Once it is open, on a disk that
does what it is told, three things remain, and each of them is about the world in which the output
was opened.

* The patches can be gathered (`RangeSync.Job.Gathers`): the seed has the ranges that are copied,
  and every answer serves its range.
* The bytes that they make can be put into their place (`RangeSync.Job.CanInstall`).
* Then the run has installed these bytes (`RangeSync.Job.Installs`), and what it reports is written
  in the job (`RangeSync.Job.report`).

**A run succeeds exactly if the patches can be gathered and the bytes installed**
(`RangeSync.Job.ends_run_exactly`). Nothing in this speaks of an order of the ranges but the patches
themselves.
-/

namespace RangeSync

open Act Disk

namespace Job

variable {job : Job} {w w₁ : World} {b b' : Bench} {patches : List Patch}

/-! ### Copying -/

/-- The bytes that the ranges of the seed are taken from: those of the file that its path leads to,
and none if it leads to no file. -/
def seedBytes (job : Job) (d : Disk) : List UInt8 :=
  match d.placeOf? job.seed with
  | some place => d.bytesAt place
  | none => []

/-- **Everything that is reused can be copied**: there is a seed, if one is needed, it has all of
the ranges, and their lengths have a sum. -/
structure CanReuse (job : Job) (d : Disk) : Prop where
  found : job.plan.reuse ≠ [] → d.placeOf? job.seed ≠ none
  readable : ∀ r ∈ job.plan.reuse, r.CanBeRead (job.seedBytes d)
  total : job.plan.reused < UInt64.size

theorem seedBytes_of_fileAt {d : Disk} {file : Location} {seed : List UInt8}
    (h : d.FileAt job.seed file seed) : job.seedBytes d = seed := by
  rw [seedBytes, h.placeOf?]
  exact h.bytesAt

/-- A seed that is there can be reused, if it has all of the ranges. -/
theorem canReuse_of_fileAt {d : Disk} {file : Location} {seed : List UInt8}
    (h : d.FileAt job.seed file seed)
    (hread : ∀ r ∈ job.plan.reuse, r.CanBeRead seed) (hsum : job.plan.reused < UInt64.size) :
    job.CanReuse d := by
  refine ⟨fun _ => ?_, ?_, hsum⟩
  · rw [h.placeOf?]
    exact Option.some_ne_none file
  · rwa [seedBytes_of_fileAt h]

/-- **Copying succeeds exactly if everything that is reused can be copied.** -/
theorem ends_copyReuse_exactly (hopens : job.Opens w b) (hr : b.CanReach job.length.toNat)
    (hfor : job.plan.IsFor job.length) :
    job.copyReuse.Ends b
      (fun total b' => job.CanReuse b.2.disk ∧ total.toNat = job.plan.reused ∧
        b.Laid (job.plan.reuse.map (·.slice (job.seedBytes b.2.disk))) b' ∧ b.OnlyFiles b' ∧
        b'.CanReach job.length.toNat)
      fun _ _ => ¬ job.CanReuse b.2.disk := by
  by_cases hreuse : job.plan.reuse = []
  · rw [copyReuse_of_nil hreuse, hreuse]
    have hzero : job.plan.reused = 0 := by
      rw [Plan.reused, hreuse]
      rfl
    refine ⟨⟨fun hne => absurd hreuse hne, ?_, ?_⟩, hzero.symm, .nil (.refl b), .refl b, hr⟩
    · rw [hreuse]
      exact List.forall_mem_nil _
    · rw [hzero]
      decide
  · rcases hwalk : b.2.disk.tree.walk b.2.disk.cwd true job.seed with kind | (⟨file, e⟩ | _)
    case ok.taken =>
      have hplace : b.2.disk.placeOf? job.seed = some file := by rw [Disk.placeOf?, hwalk]
      have hbytes : job.seedBytes b.2.disk = b.2.disk.bytesAt file := by rw [seedBytes, hplace]
      refine (job.ends_copyReuse_of_draws (hopens.draws hr file) hwalk hfor.reuse).mono ?_ ?_
      · rintro total b' ⟨hread, htotal, hlaid, hfiles, hr'⟩
        rw [hbytes]
        refine ⟨⟨fun _ => ?_, hbytes ▸ hread, htotal ▸ total.toNat_lt_size⟩, htotal, hlaid, hfiles,
          hr'⟩
        rw [hplace]
        exact Option.some_ne_none file
      · rintro _ _ (hlarge | ⟨_, r, _, hsplit, _, hno, _⟩) hc
        · exact absurd hc.total (Nat.not_lt.mpr hlarge)
        · refine hno (hbytes ▸ hc.readable r ?_)
          rw [hsplit]
          exact List.mem_append_right _ List.mem_cons_self
    all_goals
      -- nothing is at the path of the seed
      have hplace : b.2.disk.placeOf? job.seed = none := by rw [Disk.placeOf?, hwalk]
      have hmissing : ∃ kind, b.2.disk.missing? job.seed = some kind := by
        rw [missing?, hwalk]
        exact ⟨_, rfl⟩
      obtain ⟨_, hmissing⟩ := hmissing
      exact (job.ends_copyReuse_of_missing b hreuse hmissing).mono (fun _ _ hno => hno.elim)
        fun _ _ _ hc => hc.found hreuse hplace

/-! ### Downloading -/

/-- **A range is downloaded exactly if its answer serves it** and no check fails. Then the bytes of
the range in the answer are laid over the output. -/
theorem ends_downloadRange_exactly (o : Origin) (r : DownloadRange) (target : UInt64) {n : Nat}
    (h : b.CanReach n) (hfit : r.first.toNat + r.span.2 ≤ n) :
    (Bench.onWriter (Writer.seekTo r.first.toNat)).Ends b
      (fun _ b₁ => (o.fetch r target).Ends b₁
        (fun received b' => ∃ answer,
          runOn (o.client.fetch o.url (some r.header)) b.2.net = (.ok answer, b'.2.net) ∧
          answer.Serves r ∧ received = .ofNat r.span.2 ∧ o.portion < Origin.roomLimit ∧
          b.Laid [(r.first.toNat, Origin.wanted r answer)] b' ∧
          Advances r.span.2 b.2.progress b'.2.progress ∧ b'.CanReach n)
        fun _ _ => o.IsSteady [r] b.2.progress → ∀ answer net',
          runOn (o.client.fetch o.url (some r.header)) b.2.net = (.ok answer, net') →
            ¬ answer.Serves r)
      fun _ _ => False := by
  refine (h.ends_seekTo (Nat.le_trans (Nat.le_add_right _ _) hfit)).mono ?_ fun _ _ hno => hno
  rintro _ b₁ ⟨h₁, hp₁, hr₁⟩
  have hlanded : b₁.1.position + (Origin.landed r (o.reply r b₁.2.net)).length ≤ n := by
    have hle : (Origin.landed r (o.reply r b₁.2.net)).length ≤ r.span.2 := Origin.length_landed_le
    rw [h₁.position]
    omega
  rw [← hp₁.net, ← hp₁.progress]
  refine (o.ends_fetch_of_reach target hr₁ hlanded).mono ?_ ?_
  · rintro received b₂ ⟨⟨hverdict, hportion⟩, h₂, hnet₂, ha₂, hr₂⟩
    obtain ⟨answer, hreply, hserves, rfl⟩ := Origin.verdict_eq_ok_iff.mp hverdict
    rw [hreply, Origin.landed_of_serves hserves] at h₂
    exact ⟨answer, Prod.ext hreply hnet₂.symm, hserves, rfl, hportion, h₂.laid h₁, ha₂, hr₂⟩
  · rintro _ _ (⟨_, hverdict, _⟩ | ⟨_, hunsteady⟩) hs answer net' hrun hserves
    · -- an answer that serves the range comes to its length
      have hreply : o.reply r b₁.2.net = .ok answer := congrArg Prod.fst hrun
      cases hverdict.symm.trans (Origin.verdict_eq_ok_iff.mpr ⟨answer, hreply, hserves, rfl⟩)
    · exact hunsteady hs

/-- **Ranges are downloaded exactly if they are delivered** and no check fails. -/
theorem ends_downloadRanges_exactly (job : Job) (o : Origin) (h : b.CanReach job.length.toNat)
    (total : UInt64) (ranges : List DownloadRange)
    (htarget : ∀ r ∈ ranges, r.first.toNat + r.span.2 ≤ job.length.toNat) :
    (job.downloadRanges o total ranges).Ends b
      (fun n b' => (ranges ≠ [] → o.portion < Origin.roomLimit) ∧
        n.toNat = total.toNat + sumOf (ranges.map (·.span.2)) ∧
        Advances (sumOf (ranges.map (·.span.2))) b.2.progress b'.2.progress ∧
        ∃ patches, o.deliveries? b.2.net ranges = some patches ∧ b.Laid patches b')
      fun _ _ => total.toNat + sumOf (ranges.map (·.span.2)) < UInt64.size →
        o.IsSteady ranges b.2.progress →
          ∀ patches, o.deliveries? b.2.net ranges ≠ some patches := by
  -- the output of one range is where the next one starts from, and the total counts along
  induction ranges generalizing b total with
  | nil => exact ⟨fun hne => absurd rfl hne, rfl, Advances.refl _, [], rfl, .nil (.refl b)⟩
  | cons r rest ih =>
    have hsum : sumOf ((r :: rest).map (·.span.2)) = r.span.2 + sumOf (rest.map (·.span.2)) := rfl
    have hfit := htarget r List.mem_cons_self
    have hsize := job.length.toNat_lt_size
    have hspan : (UInt64.ofNat r.span.2).toNat = r.span.2 :=
      UInt64.toNat_ofNat_of_lt' (by omega)
    rw [hsum]
    unfold downloadRanges
    rw [ends_bind]
    refine (ends_downloadRange_exactly o r job.length h hfit).mono ?_ fun _ _ hno => hno.elim
    intro _ b₁ hfetch
    rw [ends_bind]
    refine hfetch.mono ?_ ?_
    · rintro _ b₂ ⟨answer, hrun, hserves, rfl, hportion, h₂, ha₂, hr₂⟩
      rw [ends_bind, ends_orCrash, hspan]
      rcases hw : word? (total.toNat + r.span.2) with _ | next
      · -- the total leaves its 64 bits
        have hlarge := word?_eq_none.mp hw
        exact fun hsmall => absurd hsmall (by omega)
      · have hnext := toNat_word? hw
        refine (ih hr₂ next fun q hq => htarget q (List.mem_cons_of_mem _ hq)).mono ?_ ?_
        · rintro m b₃ ⟨_, hm, ha₃, patches, hrest, h₃⟩
          exact ⟨fun _ => hportion, by omega, ha₂.trans ha₃, _,
            Origin.deliveries?_cons.mpr ⟨answer, _, patches, hrun, hserves, hrest, rfl⟩,
            h₂.append h₃⟩
        · rintro _ _ hno hsmall hs patches hdelivers
          obtain ⟨_, _, patches', hrun', _, hrest, _⟩ := Origin.deliveries?_cons.mp hdelivers
          cases hrun.symm.trans hrun'
          exact hno (by omega) (hs.tail ha₂) patches' hrest
    · intro _ _ hno _ hs patches hdelivers
      obtain ⟨answer, net', _, hrun, hserves, _⟩ := Origin.deliveries?_cons.mp hdelivers
      exact hno hs.head answer net' hrun hserves

/-- **Everything that is missing is received**, as these patches: it is delivered, and no check
fails if there is anything at all. -/
def Receives (job : Job) (w : World) (patches : List Patch) : Prop :=
  (job.plan.download ≠ [] → job.IsSteady w.progress) ∧ job.deliveries? w.net = some patches

/-- **Downloading succeeds exactly if everything that is missing is received.** -/
theorem ends_downloadAll_exactly {origin : Option Origin} (horigin : job.origin? = .ok origin)
    (h : b.CanReach job.length.toNat) (hfor : job.plan.IsFor job.length) :
    (job.downloadAll origin).Ends b
      (fun n b' => n.toNat = job.plan.downloaded ∧
        ∃ patches, job.Receives b.2 patches ∧ b.Laid patches b')
      fun _ _ => ∀ patches, ¬ job.Receives b.2 patches := by
  rcases origin?_eq_ok horigin with ⟨hnil, rfl⟩ | ⟨hsome, client, _, rfl⟩
  · refine ⟨?_, [], ⟨fun hne => absurd hnil hne, ?_⟩, .nil (.refl b)⟩
    · rw [Plan.downloaded, hnil]
      rfl
    · rw [deliveries?, horigin]
  · have hdeliveries : job.deliveries? b.2.net =
        Origin.deliveries? ⟨client, job.url, job.settings.downloadChunkSize.count⟩ b.2.net
          job.plan.download := by
      rw [deliveries?, horigin]
    refine ends_downloadAll_cases (fun htotal _ hreceives => ?_) fun announced htotal => ?_
    · exact (hreceives.1 hsome).downloadTotal?_ne_none htotal
    · have hannounced := toNat_downloadTotal? htotal
      have hsmall : job.plan.downloaded < UInt64.size := hannounced ▸ announced.toNat_lt_size
      have hzero : (0 : UInt64).toNat = 0 := rfl
      have h₁ := Bench.carries_of_disk b
        { b.2 with progress := b.2.progress.map (·.announce announced) } (Kept.refl _) rfl
      have hr₁ : Bench.CanReach
          (b.1, { b.2 with progress := b.2.progress.map (·.announce announced) })
          job.length.toNat := h.kept (Kept.refl _) rfl
      have htarget (r : DownloadRange) (hr : r ∈ job.plan.download) :
          r.first.toNat + r.span.2 ≤ job.length.toNat :=
        hfor.spans_fit r.span (List.mem_append_right _ (List.mem_map_of_mem hr))
      refine (job.ends_downloadRanges_exactly _ hr₁ 0 job.plan.download htarget).mono ?_ ?_
      · rintro n b₂ ⟨hportion, hn, ha₂, patches, hdelivers, h₂⟩
        have hroom : job.settings.downloadChunkSize.count.toNat < Origin.roomLimit :=
          Nat.lt_of_le_of_lt (Nat.le_max_right 1 _) (hportion hsome)
        refine ⟨fun hall => ?_, fun t ht hopen => ?_⟩
        · have hfresh := IsSteady.fresh_of_isComplete hannounced ha₂ hall
          exact ⟨hn.trans (Nat.zero_add _), patches,
            ⟨fun _ => ⟨length?_ne_none_of_total htotal, hsmall, hroom, hfresh⟩,
              hdeliveries.trans hdelivers⟩, (Bench.Laid.nil h₁).append h₂⟩
        · rw [ht] at ha₂
          exact fun _ hreceives => hopen ((hreceives.1 hsome).isComplete hannounced ha₂)
      · rintro _ _ hno patches hreceives
        refine hno ?_ ((hreceives.1 hsome).announce hannounced client job.url) patches
          (hdeliveries.symm.trans hreceives.2)
        rw [hzero, Nat.zero_add]
        exact hsmall

/-! ### Filling -/

/-- **The patches can be gathered** in the world where the output was opened: the plan is for the
target, everything that is reused can be copied, and everything else is received. -/
structure Gathers (job : Job) (w : World) (patches : List Patch) : Prop where
  isFor : job.plan.IsFor job.length
  reuse : job.CanReuse w.disk
  parts : ∃ delivered, job.Receives w delivered ∧
    patches = job.plan.reuse.map (·.slice (job.seedBytes w.disk)) ++ delivered

/-- There is one way to gather the patches. -/
theorem Gathers.unique {patches' : List Patch} (h : job.Gathers w patches)
    (h' : job.Gathers w patches') : patches = patches' := by
  obtain ⟨delivered, hreceives, rfl⟩ := h.parts
  obtain ⟨delivered', hreceives', rfl⟩ := h'.parts
  rw [Option.some.inj (hreceives.2.symm.trans hreceives'.2)]

/-- **An open output is filled exactly if the patches can be gathered**, and then they are laid over
it. -/
theorem ends_fill_exactly {writer : Writer} (hobliging : w.disk.IsObliging)
    (hopened : runOn job.opening w = (.ok writer, w₁)) :
    job.fill.Ends w
      (fun filled w' => filled.1.toNat = job.plan.reused ∧
        filled.2.1.toNat = job.plan.downloaded ∧
        ∃ patches, job.Gathers w₁ patches ∧ Bench.Laid (writer, w₁) patches (filled.2.2, w'))
      fun _ _ => ∀ patches, ¬ job.Gathers w₁ patches := by
  refine ends_fill_cases (fun fault hcheck patches hg => ?_) (fun reason _ horigin patches hg => ?_)
    fun origin hcheck horigin => ?_
  · cases hcheck.symm.trans (Plan.check_eq_ok_iff.mpr hg.isFor)
  · obtain ⟨delivered, ⟨_, hdelivers⟩, _⟩ := hg.parts
    rw [deliveries?, horigin] at hdelivers
    cases hdelivers
  have hfor := Plan.isFor_of_check hcheck
  rw [ends_fill_iff hcheck horigin, ends_of_ok hopened]
  obtain ⟨hopens, hr⟩ := (job.ends_opening_canReach hobliging).of_ok hopened
  refine (ends_shielded (ends_orAbandon (ends_copyReuse_exactly hopens hr hfor))).mono ?_ ?_
  · rintro ⟨reused, writer₂⟩ w₂ ⟨hreuse, hreused, h₂, hp₂, hr₂⟩
    -- copying changes nothing of the world that downloading depends on
    have hreceives (delivered : List Patch) :
        job.Receives w₂ delivered ↔ job.Receives w₁ delivered := by
      have hprogress : w₂.progress = w₁.progress := hp₂.progress
      have hnet : w₂.net = w₁.net := hp₂.net
      rw [Receives, Receives, hprogress, hnet]
    refine (ends_orAbandon (ends_downloadAll_exactly horigin hr₂ hfor)).mono ?_ ?_
    · rintro ⟨downloaded, writer₃⟩ w₃ ⟨hdownloaded, delivered, hd, h₃⟩
      exact ⟨hreused, hdownloaded, _, ⟨hfor, hreuse, delivered, (hreceives delivered).mp hd, rfl⟩,
        h₂.append h₃⟩
    · rintro _ _ ⟨_, hno, _⟩ patches hg
      obtain ⟨delivered, hd, _⟩ := hg.parts
      exact hno delivered ((hreceives delivered).mpr hd)
  · rintro _ _ ⟨_, ⟨_, hno, _⟩, _⟩ patches hg
    exact hno hg.reuse

/-! ### Finishing -/

/-- **The bytes can be put into their place**: the path of a seed can be supplanted, and the digest
is the expected one. -/
structure CanInstall (job : Job) (d : Disk) (bytes : List UInt8) : Prop where
  supplant : job.destination = .replaceSeed → Writer.CanSupplant d job.seed
  digest : ∀ expected, job.expected = some expected → Digest.sha1Hex bytes = expected

/-- **The bytes are in their place**: the path of the output ended at an entry that is a file with
these bytes now, and every other entry is as before. -/
def Installs (job : Job) (d : Disk) (bytes : List UInt8) (d' : Disk) : Prop :=
  ∃ s mode time, d.tree.walk d.cwd job.follows job.path = .ok s ∧
    d'.tree.get? s.place = some (.file bytes mode time) ∧ Tree.SameOff s.place d.tree d'.tree

/-- **An output that was filled is finished exactly if its bytes can be put into their place.** -/
theorem ends_finish_exactly {b₁ : Bench} (hobliging : w.disk.IsObliging) (hopens : job.Opens w b₁)
    (hc : Bench.Carries b₁ b) :
    job.finish.Ends b
      (fun path b' => path = job.path ∧ job.CanInstall w.disk b.bytes ∧
        job.Installs w.disk b.bytes b'.2.disk)
      fun _ _ => ¬ job.CanInstall w.disk b.bytes := by
  have hrefuses : b.2.disk.refuses = w.disk.refuses := hc.refuses.trans hopens.refuses
  unfold Installs
  rcases hdest : job.destination with path | _
  · obtain ⟨s, hw, _, hpath, hleads, halong⟩ := hopens.leadsTo hdest hc
    rw [follows_of_file hdest, path_of_file hdest]
    refine (job.ends_finish_of_site b hleads).mono ?_ ?_
    · rintro answer b' ⟨hanswer, hstays, hdigest⟩
      obtain ⟨mode, time, hget⟩ := hstays.file.get?
      refine ⟨hanswer.trans hpath, ⟨fun hreplace => ?_, hdigest⟩, s, mode, time, hw, hget, ?_⟩
      · cases hdest.symm.trans hreplace
      · exact (halong.tree (Tree.SameOff.refl _ _)).trans
          (hstays.along.tree (Tree.SameOff.refl _ _))
    · rintro _ _ ⟨_, hno⟩ hcan
      refine hno ⟨hobliging.congr hrefuses, fun hnone => ?_, hcan.digest⟩
      cases hleads.1.symm.trans hnone
  · obtain ⟨hsite, hpath, hspares⟩ := hopens.staged hdest hc
    rw [follows_of_replaceSeed hdest, path_of_replaceSeed hdest]
    refine ((job.ends_finish_of_staged b hsite).and
      (job.ends_finish_canSupplant b hsite)).mono ?_ ?_
    · rintro answer b' ⟨⟨hanswer, hcommits, hdigest⟩, hcan⟩
      rw [hpath] at hcommits hcan
      obtain ⟨s, mode, time, hw, _, hoff, hget, _⟩ := (hspares.commits hcommits).1
      exact ⟨hanswer.trans hpath, ⟨fun _ => hcan.before_spares hspares, hdigest⟩, s, mode, time, hw,
        hget, hoff⟩
    · rintro _ _ ⟨⟨_, hno⟩, _⟩ hcan
      refine hno ⟨hobliging.congr hrefuses, fun _ => ?_, hcan.digest⟩
      rw [hpath]
      exact (hcan.supplant hdest).of_spares hspares

/-! ### Running -/

/-- What a run reports if it succeeds. -/
def report (job : Job) : Summary where
  path := job.path
  reused := .ofNat job.plan.reused
  downloaded := .ofNat job.plan.downloaded
  requests := job.plan.download.length
  isVerified := job.expected.isSome

/-- A run fails if its output cannot be opened. -/
theorem ends_run_of_unopened (job : Job) {cause : Stop RebuildFault}
    (hunopened : runOn job.opening w = (.error cause, w₁)) :
    job.run.Ends w (fun _ _ => False) fun _ _ => True := by
  rw [run_eq, ends_bind]
  refine ends_fill_cases (fun _ _ => trivial) (fun _ _ _ => trivial) fun origin hcheck horigin => ?_
  rw [ends_fill_iff hcheck horigin, ends_of_error hunopened]
  trivial

/-- **A run with an open output succeeds exactly if the patches can be gathered and the bytes that
they make can be put into their place.** Then they are there, and what is reported is written in the
job. -/
theorem ends_run_exactly (job : Job) {writer : Writer} (hobliging : w.disk.IsObliging)
    (hopened : runOn job.opening w = (.ok writer, w₁)) :
    job.run.Ends w
      (fun summary w' => summary = job.report ∧ ∃ patches, job.Gathers w₁ patches ∧
        job.CanInstall w.disk (patched (List.replicate job.length.toNat 0) patches) ∧
        job.Installs w.disk (patched (List.replicate job.length.toNat 0) patches) w'.disk)
      fun _ _ => ∀ patches, job.Gathers w₁ patches →
        ¬ job.CanInstall w.disk (patched (List.replicate job.length.toNat 0) patches) := by
  have hopens : job.Opens w (writer, w₁) := (job.ends_opening w).of_ok hopened
  rw [run_eq, ends_bind]
  refine (ends_fill_exactly hobliging hopened).mono ?_ fun _ _ hno patches hg _ => hno patches hg
  rintro ⟨reused, downloaded, writer₂⟩ w₂ ⟨hreused, hdownloaded, patches, hg, hlaid⟩
  have hbytes : Bench.bytes (writer₂, w₂) =
      patched (List.replicate job.length.toNat 0) patches := by
    rw [hlaid.bytes, hopens.zeros]
  refine (ends_close (ends_finish_exactly hobliging hopens hlaid.carries)).mono ?_ ?_
  · rintro ⟨path, reused', downloaded', requests, isVerified⟩ w' ⟨rfl, rfl, rfl, rfl, _, rfl, hcan,
      hinstalls⟩
    rw [hbytes] at hcan hinstalls
    refine ⟨?_, patches, hg, hcan, hinstalls⟩
    rw [report, ← hreused, ← hdownloaded, UInt64.ofNat_toNat, UInt64.ofNat_toNat]
  · rintro _ _ ⟨_, hno⟩ patches' hg' hcan
    rw [hbytes, hg.unique hg'] at hno
    exact hno hcan

end Job
end RangeSync
