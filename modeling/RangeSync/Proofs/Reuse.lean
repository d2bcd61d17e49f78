import RangeSync.Proofs.RoundTrip
import RangeSync.Proofs.Success

/-!
# What is reused

The output is opened, emptied and filled with zeros before the seed is, and both are given by paths.
So it has to be shown that what is copied from the seed is what the seed had when the task was
started. What protects it is the choice of the destination: an output path that leads to the seed
means that the seed is to be replaced, and then nothing is written into it.

* **What is reused is the seed's own** (`RangeSync.Job.Reuses`): when the output has been opened the
  seed is as it was, it stays so while its ranges are copied, and every range that is copied is the
  seed's. A copy that breaks off has copied a beginning of that.
* **A seed that is missing is not reused**: the run fails with the reason for which nothing is found
  at its path, unless the task itself has put something there
  (`RangeSync.SyncTask.Briefing.IsClear`).

`RangeSync.SyncTask.reuses_the_seed` says both. The exception is real. If the seed and the output
are given by the same path and nothing is there, the two paths lead nowhere, so they are not found
to be the same. The output is created, and then it is taken for the seed: all that is reused is the
zeros that were just written, and no failure tells of the missing seed
(`RangeSync.SyncTask.mirrored_seed_is_not_missed`).
-/

namespace RangeSync

open Act Disk

namespace Job

variable {job : Job} {w w' : World} {b b' : Bench} {place : Location} {seed : List UInt8}
  {writer : Writer} {kind : IoKind}

/-! ### A seed that is there -/

/-- **What is reused is the seed's own.** The output has nothing but zeros yet, and the seed is
where it was. Copying lays the ranges of the seed over the output, one after the other and as a
whole; if it breaks off, it has laid the first of them, and perhaps the beginning of the next one.
The seed is not touched by that. -/
structure Reuses (job : Job) (place : Location) (seed : List UInt8) (b : Bench) : Prop where
  zeros : b.bytes = List.replicate job.length.toNat 0
  isSeed : b.2.disk.FileAt job.seed place seed
  copies : job.copyReuse.Ends b
    (fun _ b' => (∀ r ∈ job.plan.reuse, r.IsIn seed) ∧
      b'.bytes = patched b.bytes (job.plan.reuse.map (·.slice seed)) ∧
      b'.2.disk.FileAt job.seed place seed)
    (fun _ b' => ∃ patches, Begun patches (job.plan.reuse.map (·.slice seed)) ∧
      b'.bytes = patched b.bytes patches ∧ b'.2.disk.FileAt job.seed place seed)

/-- An output that is opened in another place than the seed reuses the seed. -/
theorem Opens.reuses (h : job.Opens w b) (hseed : w.disk.FileAt job.seed place seed)
    (hapart : job.IsApartFrom w.disk place) : job.Reuses place seed b := by
  obtain ⟨hfile, hsite⟩ := h.seed hseed hapart
  refine ⟨h.zeros, hfile, (job.ends_copyReuse b h.isOpen).mono ?_ ?_⟩
  · rintro _ b' ⟨patches, hspans, _, h', _, hslices⟩
    obtain rfl := hslices place seed hfile hsite
    refine ⟨fun r hr => ?_, h'.bytes, h'.carries.fileAt h.isOpen hfile hsite⟩
    -- a range is copied as a whole, so the seed has all of it
    rw [List.map_map] at hspans
    exact ReuseRange.length_slice_iff.mp (congrArg Prod.snd (List.map_inj_left.mp hspans r hr))
  · rintro _ b' ⟨⟨patches, h', hbegun⟩, _⟩
    exact ⟨patches, hbegun place seed hfile hsite, h'.bytes,
      h'.carries.fileAt h.isOpen hfile hsite⟩

/-! ### A seed that is missing -/

/-- **A seed that is missing is still missing when the output has been opened**, unless its path
comes by the file that was created. -/
theorem Opens.missing? (h : job.Opens w b) (hmissing : w.disk.missing? job.seed = some kind)
    (hclear : ∀ path folder name, job.destination = .file path →
      w.disk.tree.walk w.disk.cwd true path = .ok (.vacant folder name) →
      w.disk.tree.Bypasses w.disk.cwd job.seed (folder ++ [name])) :
    b.2.disk.missing? job.seed = some kind := by
  rcases hdest : job.destination with path | _
  · obtain ⟨s, hs, hopen, _, hget, halong⟩ := h.fresh hdest
    have hoff := halong.tree (Tree.SameOff.refl _ _)
    have hwalk : b.2.disk.tree.walk b.2.disk.cwd true job.seed =
        w.disk.tree.walk w.disk.cwd true job.seed := by
      rw [h.cwd]
      cases s with
      | vacant folder name => exact hclear path folder name hdest hs _ hoff
      | taken site e =>
        cases e with
        | folder => exact hopen.elim
        | link => exact absurd rfl (Tree.leads_of_walk hs).not_link
        | file content mode time =>
          -- other bytes in a file do not change where a path breaks off
          exact Tree.walk_rewritten (fun _ _ => not_taken_of_missing hmissing)
            (Tree.get?_of_walk hs trivial) hoff hget
    rw [Disk.missing?, hwalk]
    exact hmissing
  · rw [(h.kept hdest).2.missing?]
    exact hmissing

end Job

namespace SyncTask

variable {task : SyncTask} {w w' : World} {writer : Writer} {kind : IoKind}

namespace Briefing

/-- **The seed is not created by the task**: its path comes by neither the temporary copy of the
descriptor nor the file that is created for the output. -/
def IsClear (b : Briefing task w) : Prop :=
  (∀ temporary, b.fetched.temporary = some temporary →
    w.disk.tree.Bypasses w.disk.cwd task.seed temporary) ∧
  ∀ path folder name, b.job.destination = .file path →
    b.start.disk.tree.walk b.start.disk.cwd true path = .ok (.vacant folder name) →
    b.start.disk.tree.Bypasses b.start.disk.cwd task.seed (folder ++ [name])

variable {b : Briefing task w}

/-- A seed that is missing is still missing when the job is run. -/
theorem IsClear.missing?_start (h : b.IsClear) (hmissing : w.disk.missing? task.seed = some kind) :
    b.start.disk.missing? task.seed = some kind := by
  rcases htemp : b.fetched.temporary with _ | temporary
  · rw [(b.arrives.kept htemp).missing?]
    exact hmissing
  · obtain ⟨content, hh⟩ := b.arrives.added temporary htemp
    have hwalk := h.1 temporary htemp _ hh.beside.2
    rw [Disk.missing?, hh.along.cwd, hwalk]
    exact hmissing

/-- **A task whose seed is missing fails** when a range is to be copied from it, with the reason for
which nothing is found. -/
theorem IsClear.ends_run (h : b.IsClear) {w₁ : World}
    (hmissing : w.disk.missing? task.seed = some kind) (hreuse : b.plan.reuse ≠ [])
    (hcheck : b.plan.check b.order.length = .ok ())
    (hopened : runOn b.job.opening b.start = (.ok writer, w₁)) :
    task.run.Ends w (fun _ _ => False)
      fun cause _ => ∃ reason, cause = .failed (.rebuild (.files reason)) ∧
        (w.disk.Refuses reason ∨ reason = kind) := by
  have hopens := (b.job.ends_opening b.start).of_ok hopened
  have hstill := hopens.missing? (h.missing?_start hmissing) h.2
  have hrun : b.job.run.Ends b.start (fun _ _ => False)
      fun cause _ => ∃ reason, cause = .failed (.files reason) ∧
        (w.disk.Refuses reason ∨ reason = kind) := by
    rw [Job.run_eq, ends_bind]
    refine (b.job.ends_fill_of_missing b.start hcheck rfl hreuse hopened hstill).mono
      (fun _ _ hno => hno.elim) ?_
    rintro cause w₂ ⟨reason, hcause, hr⟩
    refine ⟨reason, hcause, hr.imp_left fun hrefused => ?_⟩
    exact refuses_congr b.arrives.along.refuses (refuses_congr hopens.refuses hrefused)
  refine task.ends_run w (fun _ _ hno _ => (hno b).elim) fun b' => ?_
  obtain rfl := b'.unique b
  refine b'.ends_conclude (hrun.mono (fun _ _ hno => hno.elim) ?_)
  rintro cause w₂ ⟨reason, rfl, hr⟩ w'' _
  exact ⟨reason, rfl, hr⟩

end Briefing

/-- **A task reuses the seed as it was when the task was started**, and nothing else. If there is a
seed, then all that is copied once the output is open are the ranges of the seed, which stays as it
is; and if the task succeeds, its output is made from them and from what was downloaded. If there is
no seed and a range is to be copied, the task fails with the reason for which nothing is found. -/
theorem reuses_the_seed (task : SyncTask) (w : World) :
    (∀ (b : Briefing task w) place seed, w.disk.FileAt task.seed place seed →
      b.job.opening.Ends b.start (fun writer w' => b.job.Reuses place seed (writer, w'))
        fun _ _ => True) ∧
    task.run.Ends w
      (fun o w' => ∃ (b : Briefing task w) (bytes : List UInt8), b.Delivers o bytes w' ∧
        ∀ place seed, w.disk.FileAt task.seed place seed →
          b.plan.MakesFrom seed b.order.length.toNat bytes)
      (fun _ _ => True) ∧
    ∀ (b : Briefing task w) kind writer w', w.disk.missing? task.seed = some kind →
      b.plan.reuse ≠ [] → b.plan.check b.order.length = .ok () →
      runOn b.job.opening b.start = (.ok writer, w') → b.IsClear →
      task.run.Ends w (fun _ _ => False)
        fun cause _ => ∃ reason, cause = .failed (.rebuild (.files reason)) ∧
          (w.disk.Refuses reason ∨ reason = kind) := by
  refine ⟨fun b place seed hseed => ?_, ?_, ?_⟩
  · have hstart := b.arrives.fileAt hseed
    refine (b.job.ends_opening b.start).mono (fun writer w' hopens => ?_) fun _ _ _ => trivial
    exact hopens.reuses hstart (Briefing.isApartFrom_seed hstart)
  · refine (task.ends_run_delivers w).mono ?_ fun _ _ _ => trivial
    rintro o w' ⟨b, bytes, h⟩
    exact ⟨b, bytes, h, h.seeded⟩
  · intro b kind writer w' hmissing hreuse hcheck hopened hclear
    exact hclear.ends_run hmissing hreuse hcheck hopened

end SyncTask

/-! ### An output that is taken for the seed -/

/-- What is copied out of a row of zeros is a part of that row wherever it is laid. -/
theorem ReuseRange.isOf_slice_zeros {r : ReuseRange} {length : Nat}
    (hfit : r.destination.toNat + r.length.toNat ≤ length) :
    Patch.IsOf (List.replicate length 0) (r.slice (List.replicate length 0)) := by
  unfold Patch.IsOf slice
  simp only [List.drop_replicate, List.take_replicate, List.length_replicate]
  congr 1
  omega

namespace Job

variable {job : Job} {w : World} {b : Bench}

/-- An output that was opened at the path of the seed is what is at that path now. -/
theorem Opens.exists_fileAt_seed (h : job.Opens w b) (hdest : job.destination = .file job.seed) :
    ∃ file, b.2.disk.FileAt job.seed file (List.replicate job.length.toNat 0) := by
  obtain ⟨s, _, _, hpath, hleads, _⟩ := h.leadsTo hdest (Bench.Carries.refl _)
  have hfile := hleads.2
  rw [hpath, h.zeros] at hfile
  exact ⟨s.place, hfile⟩

/-- **A run whose output is taken for the seed succeeds**, if the digest that is expected is that of
zeros. -/
theorem ends_run_of_mirrored (job : Job) (w : World)
    (hcheck : job.plan.check job.length = .ok ()) (hdest : job.destination = .file job.seed)
    (hobliging : w.disk.IsObliging) (hopen : job.CanOpen w.disk)
    (hsource : ∀ r ∈ job.plan.reuse, r.source.toNat + r.length.toNat ≤ job.length.toNat)
    (hsum : job.plan.reused < UInt64.size) (hdownload : job.plan.download = [])
    (hdigest : ∀ expected, job.expected = some expected →
      Digest.sha1Hex (List.replicate job.length.toNat 0) = expected) :
    job.run.Ends w (fun summary _ => summary.isVerified = job.expected.isSome)
      fun _ _ => False := by
  obtain ⟨writer, w₁, hopened, hopens⟩ := (ends_opening_of_canOpen hobliging hopen).exists_ok
  obtain ⟨file, hfile⟩ := hopens.exists_fileAt_seed hdest
  have hfor := Plan.isFor_of_check hcheck
  have hlength : job.length.toNat ≤ fileLimit := hopen.1
  have hread (r : ReuseRange) (hr : r ∈ job.plan.reuse) :
      r.CanBeRead (List.replicate job.length.toNat 0) := by
    have hfit := hsource r hr
    exact ⟨by omega, fun _ => by rwa [List.length_replicate]⟩
  have hreceives : job.Receives w₁ [] := by
    refine ⟨fun hne => absurd hdownload hne, ?_⟩
    rw [deliveries?, origin?, hdownload]
    rfl
  have hgathers : job.Gathers w₁ (job.plan.reuse.map (·.slice (job.seedBytes w₁.disk)) ++ []) :=
    ⟨hfor, canReuse_of_fileAt hfile hread hsum, [], hreceives, rfl⟩
  -- the patches are parts of the zeros that they are laid over
  have hzeros : patched (List.replicate job.length.toNat 0)
      (job.plan.reuse.map (·.slice (List.replicate job.length.toNat 0)) ++ []) =
        List.replicate job.length.toNat 0 := by
    have hfits := fits_of_isIn hfor (fun r hr => (hread r hr).isIn) hreceives.2
    rw [List.append_nil] at hfits ⊢
    refine patched_self (by rwa [List.length_replicate]) fun patch hmem => ?_
    obtain ⟨r, hr, rfl⟩ := List.mem_map.mp hmem
    exact ReuseRange.isOf_slice_zeros (hfor.reuse r hr)
  have hinstall : job.CanInstall w.disk (List.replicate job.length.toNat 0) := by
    refine ⟨fun hreplace => ?_, hdigest⟩
    cases hdest.symm.trans hreplace
  refine (job.ends_run_exactly hobliging hopened).mono ?_ ?_
  · rintro _ _ ⟨rfl, _⟩
    rfl
  · intro _ _ hno
    refine hno _ hgathers ?_
    rwa [seedBytes_of_fileAt hfile, hzeros]

end Job

/-! ### Zeros for a seed -/

namespace Digest

/-- The digest of three zeros. -/
def ofZeros : String :=
  "29e2dcfbb16f63bb0254df7585a15bb6fb5e927d"

theorem sha1Hex_zeros : sha1Hex [0, 0, 0] = ofZeros := by
  decide +kernel

theorem isDigest_ofZeros : Descriptor.isDigest ofZeros = true :=
  Descriptor.isDigest_ofList (by decide)

end Digest

/-- The world with a descriptor of three zeros. -/
def World.withZeros : World :=
  withDescriptor (Descriptor.threeBytesText Digest.ofZeros)

namespace SyncTask

/-- The task that copies three bytes of a seed to a file of its own, under the strict policy. -/
def copying (seed : String) : SyncTask where
  location := "/cde.zsync"
  seed
  output := some "/x"
  settings := { Settings.default with
    reconstruction := { Settings.default.reconstruction with integrityPolicy := .strict } }
  planner := .fixed ⟨none, [⟨0, 0, 3⟩], []⟩

/-- **The task comes to know everything**, and it makes a file of its own. -/
theorem exists_briefing_copying (seed : String) :
    ∃ b : Briefing (copying seed) .withZeros, b.fetched.temporary = none ∧
      b.plan = ⟨none, [⟨0, 0, 3⟩], []⟩ ∧ b.order.length = 3 ∧
      b.order.digest = Digest.sha1Hex [0, 0, 0] ∧ b.job.destination = .file "/x" ∧
      b.job.CanOpen b.start.disk := by
  have hlocation : (copying seed).location = "/cde.zsync" := rfl
  have hdigest : (Descriptor.threeBytes Digest.ofZeros).digest = .ok (Digest.sha1Hex [0, 0, 0]) := by
    rw [Digest.sha1Hex_zeros]
    exact Descriptor.digest_threeBytes Digest.isDigest_ofZeros
  obtain ⟨b, htemp, hp, hl, hd, _⟩ := exists_briefing_at hlocation Http.Client.named_productName
    Descriptor.read_location (by decide) Descriptor.absolute_location
    (World.isObliging_withDescriptor _) (World.fileAt_descriptor _)
    (Descriptor.read_threeBytesText Digest.isDigest_ofZeros) rfl hdigest rfl
    Descriptor.resolve_location fun _ _ _ => rfl
  have hkept : World.withZeros.disk.Kept b.start.disk := b.arrives.kept htemp
  have hx : b.start.disk.tree.walk b.start.disk.cwd true "/x" = .ok (.vacant [] "x") := by
    rw [hkept.tree, hkept.cwd]
    exact Tree.walk_of_new_name (by decide) (by decide) (by decide) rfl
  have hdest : b.job.destination = .file "/x" := by
    have hnone : b.start.disk.placeOf? "/x" = none := by
      rw [Disk.placeOf?, hx]
    refine if_neg ?_
    rintro ⟨hsome, hsame⟩
    rw [hsame] at hsome
    cases hnone ▸ hsome
  refine ⟨b, htemp, hp, hl, hd, hdest, ?_, fun path hpath' => ?_⟩
  · change b.order.length.toNat ≤ fileLimit
    rw [hl]
    decide
  · cases hdest.symm.trans hpath'
    exact ⟨by decide, _, hx, trivial⟩

/-- The output can be opened. -/
theorem exists_opened {seed : String} {b : Briefing (copying seed) .withZeros}
    (hopen : b.job.CanOpen b.start.disk) :
    ∃ writer w', runOn b.job.opening b.start = (.ok writer, w') := by
  have hobliging : b.start.disk.IsObliging :=
    (World.isObliging_withDescriptor _).congr b.arrives.along.refuses
  obtain ⟨writer, w', hrun, _⟩ := (Job.ends_opening_of_canOpen hobliging hopen).exists_ok
  exact ⟨writer, w', hrun⟩

/-- The path of a seed that is not there does not come by the output. -/
theorem isClear_copying {b : Briefing (copying "/none") .withZeros}
    (htemp : b.fetched.temporary = none) (hdest : b.job.destination = .file "/x") : b.IsClear := by
  have hkept : World.withZeros.disk.Kept b.start.disk := b.arrives.kept htemp
  have hnone (t : Tree) (ht : Tree.SameOff ["x"] World.withZeros.disk.tree t) :
      t.walk [] true "/none" = .ok (.vacant [] "none") :=
    Tree.walk_of_new_name (by decide) (by decide) (by decide) (ht ["none"] (by decide))
  constructor
  · intro temporary hno
    rw [htemp] at hno
    cases hno
  · intro path folder name hpath hw
    cases hdest.symm.trans hpath
    rw [hkept.tree, hkept.cwd] at hw ⊢
    have hx : World.withZeros.disk.tree.walk [] true "/x" = .ok (.vacant [] "x") :=
      Tree.walk_of_new_name (by decide) (by decide) (by decide) rfl
    cases hx.symm.trans hw
    intro t' ht
    exact (hnone t' ht).trans (hnone _ (Tree.SameOff.refl _ _)).symm

/-- Three bytes of a seed that is there are reused, and those of one that is not are missed. -/
theorem reuses_the_seed_copying :
    (∃ (b : Briefing (copying "/seed") .withZeros) (writer : Writer) (w' : World),
      runOn b.job.opening b.start = (.ok writer, w') ∧
        b.job.Reuses ["seed"] [97, 98, 99] (writer, w')) ∧
    ∃ w', runOn (copying "/none").run .withZeros =
      (.error (.failed (.rebuild (.files .notFound))), w') := by
  constructor
  · obtain ⟨b, htemp, hp, hl, hd, hdest, hopen⟩ := exists_briefing_copying "/seed"
    obtain ⟨writer, w', hopened⟩ := exists_opened hopen
    exact ⟨b, writer, w', hopened,
      ((reuses_the_seed _ _).1 b ["seed"] [97, 98, 99] (World.fileAt_seed _)).of_ok hopened⟩
  · obtain ⟨b, htemp, hp, hl, hd, hdest, hopen⟩ := exists_briefing_copying "/none"
    obtain ⟨writer, w', hopened⟩ := exists_opened hopen
    have hmissing : World.withZeros.disk.missing? "/none" = some .notFound :=
      missing?_of_new_name (by decide) (by decide : _ = ["none"]) (by decide) rfl
    have hends := (reuses_the_seed _ _).2.2 b .notFound writer w' hmissing (by rw [hp]; exact nofun)
      (by rw [hp, hl]; decide) hopened (isClear_copying htemp hdest)
    obtain ⟨_, w'', hrun, reason, rfl, hr⟩ := hends.exists_error
    obtain rfl := hr.resolve_left (World.isObliging_withDescriptor _ reason)
    exact ⟨w'', hrun⟩

/-- **Without the exception the statement fails**: nothing is at the path of the seed, which is that
of the output, and three bytes are to be copied from there. The output can be opened, and the task
succeeds. -/
theorem mirrored_seed_is_not_missed :
    World.withZeros.disk.missing? "/x" = some .notFound ∧
      ∃ b : Briefing (copying "/x") .withZeros, b.plan.reuse = [⟨0, 0, 3⟩] ∧
        (∃ writer w', runOn b.job.opening b.start = (.ok writer, w')) ∧
        ∃ o w', runOn (copying "/x").run .withZeros = (.ok o, w') := by
  have hmissing : World.withZeros.disk.missing? "/x" = some .notFound :=
    missing?_of_new_name (by decide) (by decide : _ = ["x"]) (by decide) rfl
  obtain ⟨b, htemp, hp, hl, hd, hdest, hopen⟩ := exists_briefing_copying "/x"
  refine ⟨hmissing, b, congrArg Plan.reuse hp, exists_opened hopen, ?_⟩
  have hexpected : b.job.expected = some (Digest.sha1Hex [0, 0, 0]) := by
    rw [← hd]
    rfl
  have hcount : b.job.length.toNat = 3 := congrArg UInt64.toNat hl
  have hrun : b.job.run.Ends b.start (fun summary _ => summary.isVerified = true)
      fun _ _ => False := by
    have hplan : b.job.plan = ⟨none, [⟨0, 0, 3⟩], []⟩ := hp
    have hcheck : b.job.plan.check b.job.length = .ok () := by
      rw [hplan, show b.job.length = 3 from hl]
      decide
    have hends := b.job.ends_run_of_mirrored b.start hcheck hdest
      ((World.isObliging_withDescriptor _).congr b.arrives.along.refuses) hopen
      (by rw [hplan, hcount]; decide) (by rw [hplan]; decide) (by rw [hplan]) fun expected he => by
        rw [hcount]
        exact Option.some.inj (hexpected.symm.trans he)
    rwa [hexpected] at hends
  have htask : (copying "/x").run.Ends .withZeros (fun _ _ => True) fun _ _ => False := by
    refine (copying "/x").ends_run .withZeros (fun _ _ hno _ => hno b) fun b' => ?_
    obtain rfl := b'.unique b
    refine b'.ends_conclude (hrun.mono (fun summary w' hverified => ?_) fun _ _ hno => hno.elim)
    rw [if_pos hverified]
    exact fun _ _ => trivial
  obtain ⟨o, w', hok, _⟩ := htask.exists_ok
  exact ⟨o, w', hok⟩

end SyncTask
end RangeSync
