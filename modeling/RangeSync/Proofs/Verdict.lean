import RangeSync.Proofs.Leftover
import RangeSync.Proofs.Requests
import RangeSync.Proofs.Soundness
import RangeSync.Proofs.Tape
import RangeSync.Proofs.Twin

/-!
# The verdict of a task

The strict policy computes the digest of an output that is not in its place yet, from the bytes that
the writer holds; the advisory policy puts the output into its place first, and then reads the file
that its path leads to. They look at different things at different times, but what they find is
meant to be the same: **the verdict is that of the bytes, not that of the policy**
(`RangeSync.SyncTask.policies_agree`).

* Until the output is filled, the policy plays no part (`RangeSync.Job.fill_under`), so a task that
  gets no further ends in the same way, in the same world.
* With the digest of the descriptor, both runs have the same outcome, and they leave worlds that
  cannot be told apart. Only whether the job has compared the digest is said of one of them.
* With another digest, both runs fail because of it, after the same requests. One has discarded the
  output (`RangeSync.SyncTask.Briefing.Discards`), the other one has kept it
  (`RangeSync.SyncTask.Briefing.Keeps`).

All of this is so if nothing is in the way of the commit
(`RangeSync.SyncTask.Briefing.CanPublish`), except where committing cuts off the path of the seed:
only the advisory policy finds that out (`RangeSync.SyncTask.Briefing.runOn_advisory_of_cuts`).
-/

namespace RangeSync

open Act Disk

/-! ### Looking and removing when nothing is refused -/

namespace Disk

variable {d d' : Disk} {path : String} {place : Location} {bytes : List UInt8} {e : Node}

/-- **Nothing is at the path**, not even a link. -/
def Lacks (d : Disk) (path : String) : Prop :=
  ∀ place e, d.tree.walk d.cwd false path ≠ .ok (.taken place e)

theorem Lacks.of_keeps (h : d.Lacks path) (hk : d'.tree.Keeps d.tree) (hcwd : d'.cwd = d.cwd) :
    d'.Lacks path := by
  intro place e hw
  rw [hcwd] at hw
  exact h place e (Tree.walk_keeps hk hw)

/-- Once the entry is gone that the path ends at, nothing is at the path. -/
theorem lacks_of_erased (hw : d.tree.walk d.cwd false path = .ok (.taken place e))
    (he : e ≠ .folder) (ht : d.Turned (d.tree.erase place) d') : d'.Lacks path := by
  have hopen : (Spot.taken place e).IsOpen := by
    cases e with
    | folder => exact absurd rfl he
    | _ => trivial
  have hne : place ≠ [] := (Tree.leads_of_walk hw).place_ne_nil hopen
  intro place' e' hw'
  rw [ht.cwd, ht.tree] at hw'
  -- the path would have ended at the same entry before, but that one was erased
  have hbefore := Tree.walk_keeps (Tree.keeps_erase hne) hw'
  obtain ⟨rfl, rfl⟩ := Spot.taken.inj (Except.ok.inj (hw.symm.trans hbefore))
  have hget := Tree.get?_of_walk hw' hopen
  rw [Spot.place, Tree.get?_erase_self hne] at hget
  cases hget

theorem ends_remove_of_willing (h : d.IsWilling) (hcan : d.CanRemove path) :
    (remove path).Ends d (fun _ d' => d'.Lacks path) fun _ _ => False := by
  have hobliged : (remove path).Ends d.obliged (fun _ t => t.Lacks path) fun _ _ => False := by
    refine (ends_remove d.obliged path).mono ?_ ?_
    · rintro _ t ⟨place, e, hw, he, ht⟩
      exact lacks_of_erased hw he ht
    · rintro kind t ⟨hk, hr | hno⟩
      · exact isObliging_obliged d kind (hr.refuses hk.refuses)
      · exact hno hcan
  refine ((respects_remove path _ _ h.twin_obliged).ends hobliged).mono ?_ ?_
  · rintro _ d' ⟨t, ht, hlacks⟩
    exact hlacks.of_keeps (ht.tree ▸ (Tree.Same.refl _).keeps) ht.cwd.symm
  · rintro _ _ ⟨_, _, hno⟩
    exact hno

end Disk

/-! ### Jobs under another policy -/

namespace Job

variable {b : Bench}

/-- The same job under another policy, and with another digest to be compared or none. -/
def under (job : Job) (policy : IntegrityPolicy) (expected : Option String) : Job :=
  { job with settings := { job.settings with integrityPolicy := policy }, expected }

theorem copyRanges_under (job : Job) (policy : IntegrityPolicy) (expected : Option String)
    (file : Location) (total : UInt64) (ranges : List ReuseRange) :
    (job.under policy expected).copyRanges file total ranges =
      job.copyRanges file total ranges := by
  induction ranges generalizing total with
  | nil => rfl
  | cons r rest ih =>
    simp only [copyRanges, ih]
    rfl

theorem downloadRanges_under (job : Job) (policy : IntegrityPolicy) (expected : Option String)
    (origin : Origin) (total : UInt64) (ranges : List DownloadRange) :
    (job.under policy expected).downloadRanges origin total ranges =
      job.downloadRanges origin total ranges := by
  induction ranges generalizing total with
  | nil => rfl
  | cons r rest ih =>
    simp only [downloadRanges, ih]
    rfl

/-- **The policy plays no part until the output is filled.** -/
theorem fill_under (job : Job) (policy : IntegrityPolicy) (expected : Option String) :
    (job.under policy expected).fill = job.fill := by
  have hcopy : (job.under policy expected).copyReuse = job.copyReuse := by
    unfold copyReuse
    simp only [copyRanges_under]
    rfl
  have hdownload (origin : Option Origin) :
      (job.under policy expected).downloadAll origin = job.downloadAll origin := by
    unfold downloadAll
    simp only [downloadRanges_under]
    rfl
  unfold fill
  rw [hcopy]
  simp only [hdownload]
  rfl

/-! ### Finishing what was filled -/

/-- **Nothing is in the way of a filled output** on its way into its place. -/
structure CanSettle (b : Bench) : Prop where
  willing : b.2.disk.IsWilling
  supplant : b.1.site = none → Writer.CanSupplant b.2.disk b.1.path
  leads : ∀ place, b.1.site = some place → LeadsTo b place

theorem ends_settle_of_willing (job : Job) (h : CanSettle b) :
    job.settle.Ends b (fun _ b' => b'.2.disk.IsWilling) fun _ _ => False := by
  have hfinish : (job.under .advisory none).CanFinish b.obliged :=
    ⟨isObliging_obliged _, h.supplant, nofun⟩
  have hends : job.settle.Ends b.obliged (fun _ _ => True) fun _ _ => False := by
    rcases hsite : b.1.site with _ | place
    · exact ((job.under .advisory none).ends_settle_of_staged (b := b.obliged) hsite
        (Bench.HasAt.refl _)).mono (fun _ _ _ => trivial) fun _ _ hno => hno.2 hfinish
    · have hleads : LeadsTo b.obliged place := by
        rw [LeadsTo, (Bench.twin_obliged h.willing).bytes]
        exact h.leads place hsite
      exact ((job.under .advisory none).ends_settle_of_site hleads (Bench.HasAt.refl _)).mono
        (fun _ _ _ => trivial) fun _ _ hno => hno.2 hfinish
  refine ((job.alike_settle (Bench.twin_obliged h.willing)).ends hends).mono ?_ ?_
  · rintro _ b' ⟨_, ht, _⟩
    exact ht.disk.willing
  · rintro _ _ ⟨_, _, hno⟩
    exact hno

/-- Comparing the digest of an output that has the expected one. -/
theorem ends_compare_of_willing (job : Job) (h : b.2.disk.IsWilling) :
    (job.compare (Digest.sha1Hex b.bytes)).Ends b (fun _ b' => b.Twin b') fun _ _ => False :=
  (ends_compare b.Twin (Bench.ends_digest_of_willing h) fun _ _ hne => absurd rfl hne).mono
    (fun _ _ ht => ht.2) fun _ _ hno => hno

/-- **An output with the expected digest is finished as if nothing had been compared.** -/
theorem alike_finish (job : Job) (h : b.2.disk.IsWilling)
    (he : job.expected = some (Digest.sha1Hex b.bytes)) :
    Alike (fun b b' => b.2.Twin b'.2) job.finish b job.settle b := by
  rw [finish_of_some he]
  exact alike_bind_left (job.ends_compare_of_willing h) fun _ b' ht => job.alike_settle ht.symm

/-- **An output with another digest is discarded** under the strict policy. -/
theorem ends_finish_of_mismatch (job : Job) (h : b.2.disk.IsWilling) {expected : String}
    (he : job.expected = some expected) (hne : Digest.sha1Hex b.bytes ≠ expected)
    (hpolicy : job.settings.integrityPolicy = .strict) :
    job.finish.Ends b (fun _ _ => False)
      fun cause b' => cause = .failed (.digest expected (Digest.sha1Hex b.bytes)) ∧
        b'.2.net = b.2.net ∧ ∃ b₁, b.Twin b₁ ∧ b'.2.disk = b₁.discarded.disk := by
  refine ends_finish (fun _ => False) (fun hnone => ?_) (fun expected' he' => ?_) fun _ hno =>
    hno.elim
  · cases he.symm.trans hnone
  · obtain rfl := Option.some.inj (he.symm.trans he')
    refine (ends_compare b.Twin ?_ fun b₁ ht _ => ?_).mono (fun _ _ heq => hne heq.1) fun _ _ h => h
    · exact (Bench.ends_digest_of_willing h).mono (fun _ _ ht => ht) fun _ _ hno => hno.elim
    · refine ends_reject (fun _ w' hd hnet => ?_) fun hadvisory => ?_
      · exact ⟨rfl, hnet.trans ht.world.net, b₁, ht, hd⟩
      · cases hpolicy.symm.trans hadvisory

end Job

/-! ### Tasks under another policy -/

/-- The same outcome of a task whose job did not compare the digest. -/
def Outcome.unverified (o : Outcome) : Outcome :=
  { o with summary := { o.summary with isVerified := false } }

namespace SyncTask

variable {task : SyncTask} {w : World}

/-- The same task under another policy. -/
def under (task : SyncTask) (policy : IntegrityPolicy) : SyncTask :=
  { task with settings := { task.settings with reconstruction :=
    { task.settings.reconstruction with integrityPolicy := policy } } }

/-- Two tasks with the same descriptor run alike if they do the same with it. -/
theorem runOn_run_congr {task' : SyncTask} (hlocation : task'.location = task.location)
    (hagent : task'.settings.client.userAgent = task.settings.client.userAgent)
    (hwith : ∀ client fetched found,
      Http.Client.named task.settings.client.userAgent = .ok client →
      runOn (Fetched.ofLocation client task.location) w = (.ok fetched, found) →
      runOn (task'.runWith client fetched) found = runOn (task.runWith client fetched) found) :
    runOn task'.run w = runOn task.run w := by
  unfold run
  rw [hlocation, hagent, runOn_bind, runOn_bind, runOn_ofExcept]
  rcases hnamed : Http.Client.named task.settings.client.userAgent with reason | client
  · rfl
  · dsimp only [Except.mapError]
    rw [runOn_bind, runOn_bind]
    rcases hfinds : runOn (Fetched.ofLocation client task.location) w with
      ⟨cause | fetched, found⟩
    · rfl
    · dsimp only
      rw [runOn_bind, runOn_bind, runOn_tryCatch, runOn_tryCatch,
        hwith client fetched found hnamed hfinds]

/-- **A task that does not come to know everything** ends in the same way under every policy. -/
theorem runOn_run_under (h : Briefing task w → False) (policy : IntegrityPolicy) :
    runOn (task.under policy).run w = runOn task.run w := by
  refine runOn_run_congr rfl rfl fun client fetched found hnamed hfinds => ?_
  unfold runWith rebuild
  rw [runOn_bind, runOn_bind, runOn_within, id]
  rcases hreads : runOn (order fetched) found with ⟨cause | order, read⟩
  · rfl
  · dsimp only [Except.mapError]
    rw [runOn_bind, runOn_bind, runOn_within, runOn_within, id]
    rcases hplans : runOn (task.planner.plan fetched.path task.seed) read with
      ⟨cause | plan, planned⟩
    · have hsame : runOn ((task.under policy).planner.plan fetched.path
        (task.under policy).seed) read = (.error cause, planned) := hplans
      rw [hsame]
      rfl
    · exact (h ⟨client, fetched, order, plan, found, read, planned, hnamed, hfinds, hreads,
        hplans⟩).elim

/-! ### Comparing afterwards -/

/-- **The digest of a file that is found** is compared when nothing is refused. -/
theorem ends_confirm_of_willing {path : String} {place : Location} {bytes : List UInt8}
    (h : w.disk.IsWilling) (hfile : w.disk.FileAt path place bytes) (expected : String) :
    (confirm path expected).Ends w
      (fun _ w' => Digest.sha1Hex bytes = expected ∧ w.Twin w' ∧ w.disk.Kept w'.disk)
      fun cause w' => cause = .failed (.rebuild (.digest expected (Digest.sha1Hex bytes))) ∧
        Digest.sha1Hex bytes ≠ expected ∧ w'.net = w.net ∧ w.disk.Kept w'.disk := by
  unfold confirm Integrity.digestOf
  rw [ends_bind, ends_rebuild, Bench.ends_onDisk, ends_bind]
  refine (ends_contents_of_willing h hfile).mono ?_ fun _ _ hno => hno.elim
  rintro _ d ⟨rfl, ht, hk⟩
  rw [ends_pure]
  split
  · rename_i hne
    rw [ends_bind, World.note, ends_modify]
    exact ⟨rfl, hne, rfl, hk⟩
  · rename_i heq
    exact ⟨Decidable.of_not_not heq, w.twin_of_disk ht, hk⟩

/-- A file that is missed has no digest, for the reason for which it is missed. -/
theorem ends_confirm_of_missing {path : String} {kind : IoKind} (h : w.disk.IsWilling)
    (hmissing : w.disk.missing? path = some kind) (expected : String) :
    (confirm path expected).Ends w (fun _ _ => False)
      fun cause _ => cause = .failed (.rebuild (.files kind)) := by
  have hrespects : (Integrity.digestOf path).Respects Disk.Twin :=
    respects_bind (respects_contents path) fun _ => respects_pure _
  unfold confirm
  rw [ends_bind, ends_rebuild, Bench.ends_onDisk]
  refine ((hrespects _ _ h.twin_obliged).ends
    (Integrity.ends_digestOf_of_missing (isObliging_obliged _) hmissing)).mono ?_ ?_
  · rintro _ _ ⟨_, _, hno⟩
    exact hno.elim
  · rintro _ _ ⟨_, _, rfl⟩
    rfl

namespace Briefing

variable {b : Briefing task w} {w₁ w' : World} {filled : UInt64 × UInt64 × Writer}
  {summary : Summary}

/-- What a task knows does not depend on its policy. -/
def under (b : Briefing task w) (policy : IntegrityPolicy) : Briefing (task.under policy) w :=
  ⟨b.client, b.fetched, b.order, b.plan, b.found, b.read, b.planned, b.named, b.finds, b.reads,
    b.plans⟩

/-- The same file suits it then. -/
theorem Suits.under {place : Location} {seed file : List UInt8} (h : b.Suits place seed file)
    (policy : IntegrityPolicy) : (b.under policy).Suits place seed file :=
  ⟨h.obliging, h.fits, h.size, h.length, h.isSeed, h.seedSize, h.web, h.offers, h.room⟩

/-! ### Filled outputs -/

/-- **Nothing is in the way of the commit** when the output is filled: the system refuses nothing
from then on, and a seed that is to be replaced can be. -/
def CanPublish (b : Briefing task w) : Prop :=
  ∀ filled w₁, runOn b.job.fill b.start = (.ok filled, w₁) → w₁.disk.IsWilling ∧
    (b.job.destination = .replaceSeed → Writer.CanSupplant w₁.disk task.seed)

theorem fills (hfill : runOn b.job.fill b.start = (.ok filled, w₁)) :
    b.job.Fills b.start (filled.2.2, w₁) :=
  ((b.job.ends_fill b.start).of_ok hfill).2.2

/-- **The output is filled with the file**, where it is to replace a seed. -/
theorem Suits.exists_filled_replacing {place : Location} {seed file : List UInt8}
    (h : b.Suits place seed file) (hdest : b.job.destination = .replaceSeed) :
    ∃ filled w₁, runOn b.job.fill b.start = (.ok filled, w₁) ∧
      Bench.bytes (filled.2.2, w₁) = file := by
  have hcan := h.canFill_replacing hdest
  rcases hfill : runOn b.job.fill b.start with ⟨cause | filled, w₁⟩
  · exact absurd hcan (((b.job.ends_fill b.start).of_error hfill).2 place seed _)
  · exact ⟨filled, w₁, rfl, ((fills hfill).exact hcan).trans h.patched_eq⟩

theorem CanPublish.canSettle (h : b.CanPublish)
    (hfill : runOn b.job.fill b.start = (.ok filled, w₁)) : Job.CanSettle (filled.2.2, w₁) := by
  obtain ⟨hwilling, hsupplant⟩ := h filled w₁ hfill
  obtain ⟨b₁, hopens, hcarries⟩ := (fills hfill).opened
  rcases hdest : b.job.destination with path | _
  · obtain ⟨s, _, _, _, hleads, _⟩ := hopens.leadsTo hdest hcarries
    refine ⟨hwilling, fun hsite => ?_, fun place hsite => ?_⟩
    · cases hleads.1.symm.trans hsite
    · cases hleads.1.symm.trans hsite
      exact hleads
  · obtain ⟨hsite, hpath, _⟩ := hopens.staged hdest hcarries
    refine ⟨hwilling, fun _ => ?_, fun place hsite' => ?_⟩
    · rw [hpath]
      exact hsupplant hdest
    · cases hsite.symm.trans hsite'

/-- Where the system refuses nothing, only the path of the seed can be in the way. -/
theorem canPublish_of_obliging (hobliging : w.disk.IsObliging)
    (hplace : b.job.destination = .replaceSeed → Writer.CanSupplant b.start.disk task.seed) :
    b.CanPublish := by
  intro filled w₁ hfill
  have hstart : b.start.disk.IsObliging := hobliging.congr b.arrives.along.refuses
  obtain ⟨b₁, hopens, hcarries⟩ := (fills hfill).opened
  refine ⟨(hstart.congr (hcarries.refuses.trans hopens.refuses)).isWilling, fun hdest => ?_⟩
  exact (hplace hdest).of_spares (hopens.staged hdest hcarries).2.2

/-- A seed that is a file is not in the way. -/
theorem canPublish_of_seed {place : Location} {seed : List UInt8}
    (hobliging : w.disk.IsObliging) (hseed : w.disk.FileAt task.seed place seed) :
    b.CanPublish := by
  obtain ⟨_, _, hw⟩ := b.arrives.fileAt hseed
  exact canPublish_of_obliging hobliging fun _ => Writer.canSupplant_of_walk hw trivial

/-- A filled output of its own is written into the file that its path leads to, and is in its place
as long as it stays there. -/
theorem leads_of_fill {path : String} (hdest : b.job.destination = .file path)
    (hfill : runOn b.job.fill b.start = (.ok filled, w₁)) :
    filled.2.2.path = b.job.path ∧ ∃ place, Job.LeadsTo (filled.2.2, w₁) place ∧
      ∀ w₂ : World, Job.StaysAt (filled.2.2, w₁) place w₂.disk →
        b.Placed (Bench.bytes (filled.2.2, w₁)) w₂ := by
  obtain ⟨b₁, hopens, hcarries⟩ := (fills hfill).opened
  obtain ⟨s, hw, hs, hpath, hleads, halong⟩ := hopens.leadsTo hdest hcarries
  refine ⟨hpath.trans (Job.path_of_file hdest).symm, s.place, hleads, fun w₂ hstays => ?_⟩
  have hfile := hstays.file
  rw [hpath] at hfile
  refine placed_of_site hdest hw hs hfile (halong.trans (hstays.along.mono fun t ht => ?_))
  exact (halong.tree (Tree.SameOff.refl _ _)).trans ht

/-- A filled output in the place of a seed is nowhere in the tree, and is in its place as soon as it
is committed. -/
theorem staged_of_fill (hdest : b.job.destination = .replaceSeed)
    (hfill : runOn b.job.fill b.start = (.ok filled, w₁)) :
    filled.2.2.path = b.job.path ∧ filled.2.2.site = none ∧
      ∀ w₂ : World, Writer.Commits w₁.disk filled.2.2.path (Bench.bytes (filled.2.2, w₁)) w₂.disk →
        b.Placed (Bench.bytes (filled.2.2, w₁)) w₂ := by
  obtain ⟨b₁, hopens, hcarries⟩ := (fills hfill).opened
  obtain ⟨hsite, hpath, hspares⟩ := hopens.staged hdest hcarries
  refine ⟨hpath.trans (Job.path_of_replaceSeed hdest).symm, hsite, fun w₂ hcommits => ?_⟩
  change filled.2.2.path = b.job.seed at hpath
  rw [hpath] at hcommits
  exact placed_of_commits hdest (hspares.commits hcommits)

/-- **A filled output that is settled is in its place.** -/
theorem placed_of_settle {path : String} {b' : Bench}
    (hfill : runOn b.job.fill b.start = (.ok filled, w₁))
    (hsettle : runOn b.job.settle (filled.2.2, w₁) = (.ok path, b')) :
    path = b.job.path ∧ b.Placed (Bench.bytes (filled.2.2, w₁)) b'.2 := by
  rcases hdest : b.job.destination with out | _
  · obtain ⟨hpath, place, hleads, hplaced⟩ := leads_of_fill hdest hfill
    obtain ⟨rfl, hstays⟩ :=
      (b.job.ends_settle_of_site hleads (Bench.HasAt.refl _)).of_ok hsettle
    exact ⟨hpath, hplaced b'.2 hstays⟩
  · obtain ⟨hpath, hsite, hplaced⟩ := staged_of_fill hdest hfill
    obtain ⟨rfl, hcommits⟩ :=
      (b.job.ends_settle_of_staged (b := (filled.2.2, w₁)) hsite (Bench.HasAt.refl _)).of_ok hsettle
    exact ⟨hpath, hplaced b'.2 hcommits⟩

/-! ### What is left -/

/-- **What the strict policy leaves of an output with another digest**: a seed that was to be
replaced is as it was, like everything else, and nothing is at the path of an output of its own. -/
def Discards (b : Briefing task w) (w' : World) : Prop :=
  (b.job.destination = .replaceSeed → Writer.Spares w.disk w'.disk) ∧
    ∀ path, b.job.destination = .file path → w'.disk.Lacks path

/-- **What the advisory policy leaves of any output**: all bytes at its path, unless that is the
path of the temporary copy of the descriptor. -/
def Keeps (b : Briefing task w) (bytes : List UInt8) (w' : World) : Prop :=
  b.IsApart → (∃ place, w'.disk.FileAt b.job.path place bytes) ∧ b.Puts bytes w'

/-- The path of a seed that was cut off is missed, because what was a link is a file now. -/
theorem Placed.missing? {bytes : List UInt8} (h : b.Placed bytes w₁) (hcuts : b.Cuts) :
    w₁.disk.missing? b.job.path = some .notADirectory := by
  obtain ⟨hdest, hr⟩ := hcuts
  obtain ⟨s, hs, hopen, hoff, ⟨mode, time, hget⟩, _⟩ := h.site
  rw [Job.path_of_replaceSeed hdest] at hs ⊢
  rw [Job.follows_of_replaceSeed hdest] at hs
  rw [Disk.missing?, h.cwd, Tree.walk_retraced hs hopen hr hoff hget]

theorem Placed.keeps {bytes : List UInt8} (h : b.Placed bytes w₁) (hcuts : ¬ b.Cuts)
    (hr : b.fetched.Released w₁ w') : b.Keeps bytes w' := by
  intro hapart
  obtain ⟨place, hfile⟩ := h.found hcuts
  exact ⟨⟨place, h.fileAt_released hapart hfile hr⟩, h.puts hapart hr⟩

/-- Nothing comes to a path when the descriptor is given back. -/
theorem lacks_released {path : String} (h : w₁.disk.Lacks path)
    (hr : b.fetched.Released w₁ w') : w'.disk.Lacks path := by
  rcases htemp : b.fetched.temporary with _ | temporary
  · rw [hr.kept htemp]
    exact h
  · obtain ⟨_, _, _, hcopy⟩ := b.temporary_file htemp
    have ht := hr.dropped temporary htemp
    refine h.of_keeps ?_ ht.cwd
    rw [ht.tree]
    exact Tree.keeps_erase (Tree.ne_nil_of_file hcopy)

/-- **A filled output is put into its place** if its digest is not compared. -/
theorem exists_settled (h : b.CanPublish) (hfill : runOn b.job.fill b.start = (.ok filled, w₁)) :
    ∃ settled : Bench, runOn b.job.settle (filled.2.2, w₁) = (.ok b.job.path, settled) ∧
      settled.2.disk.IsWilling ∧ settled.2.net = w₁.net ∧
      b.Placed (Bench.bytes (filled.2.2, w₁)) settled.2 := by
  obtain ⟨path, settled, hsettle, hwilling⟩ :=
    (b.job.ends_settle_of_willing (h.canSettle hfill)).exists_ok
  obtain ⟨rfl, hplaced⟩ := placed_of_settle hfill hsettle
  have hnet := ((World.isBeside_net.leaves_settle b.job).ends (filled.2.2, w₁)).of_ok hsettle
  exact ⟨settled, hsettle, hwilling, hnet, hplaced⟩

end Briefing

/-! ### The verdict -/

/-- **The two policies agree** on how a task ends: the first run is the one under the strict policy,
the second one that under the advisory policy. -/
inductive Agree (task : SyncTask) (w : World) :
    Except (Stop SyncFault) Outcome × World → Except (Stop SyncFault) Outcome × World → Prop
  /-- Both stop for the same cause, and leave the same world. -/
  | stopped {cause : Stop SyncFault} {w' : World} :
      Agree task w (.error cause, w') (.error cause, w')
  /-- Both answer with the outcome, and leave worlds that cannot be told apart. -/
  | delivered (b : Briefing task w) {o : Outcome} {bytes : List UInt8} {ws wa : World} :
      o.summary.isVerified = true → Digest.sha1Hex bytes = o.digest → ws.Twin wa →
      b.Keeps bytes wa → Agree task w (.ok o, ws) (.ok o.unverified, wa)
  /-- Both fail because of the digest, after the same requests; one has discarded the output and one
  has kept it. -/
  | mismatched (b : Briefing task w) {bytes : List UInt8} {ws wa : World} :
      b.plan.Makes b.order.length.toNat bytes → Digest.sha1Hex bytes ≠ b.order.digest →
      wa.net = ws.net → b.Discards ws → b.Keeps bytes wa →
      Agree task w
        (.error (.failed (.rebuild (.digest b.order.digest (Digest.sha1Hex bytes)))), ws)
        (.error (.failed (.rebuild (.digest b.order.digest (Digest.sha1Hex bytes)))), wa)

namespace Briefing

variable {b : Briefing task w} {w₁ : World} {filled : UInt64 × UInt64 × Writer}

/-- The policy plays no part until the output is filled. -/
theorem runOn_fill_under (b : Briefing task w) (policy : IntegrityPolicy) :
    runOn (b.under policy).job.fill (b.under policy).start = runOn b.job.fill b.start := by
  have hjob := b.job.fill_under policy (b.under policy).job.expected
  exact congrArg (runOn · b.start) hjob

/-- **An output that cannot be filled** is no concern of the policies. -/
theorem agree_of_unfilled {cause : Stop RebuildFault}
    (hfill : runOn b.job.fill b.start = (.error cause, w₁)) :
    Agree task w (runOn (task.under .strict).run w) (runOn (task.under .advisory).run w) := by
  have hrun (policy : IntegrityPolicy) :
      runOn (b.under policy).job.run (b.under policy).start = (.error cause, w₁) :=
    Job.runOn_run_of_unfilled ((b.runOn_fill_under policy).trans hfill)
  rw [(b.under .strict).runOn_run, (b.under .advisory).runOn_run,
    runOn_conclude_of_error (hrun .strict), runOn_conclude_of_error (hrun .advisory)]
  exact .stopped

theorem outcome_under (b : Briefing task w) (policy : IntegrityPolicy) :
    (b.under policy).outcome = b.outcome :=
  rfl

/-- What the job of a filled output answers. -/
def summary (b : Briefing task w) (filled : UInt64 × UInt64 × Writer) (isVerified : Bool) :
    Summary :=
  ⟨b.job.path, filled.1, filled.2.1, b.plan.download.length, isVerified⟩

/-- The strict policy compares the digest, and then the output is put into its place. -/
theorem runOn_conclude_strict {out : Bench} (hfill : runOn b.job.fill b.start = (.ok filled, w₁))
    (hfinish : runOn (b.under .strict).job.finish (filled.2.2, w₁) = (.ok b.job.path, out)) :
    runOn (b.under .strict).conclude (b.under .strict).start =
      (.ok (b.outcome (b.summary filled true)), out.2) := by
  have hrun : runOn (b.under .strict).job.run (b.under .strict).start =
      (.ok (b.summary filled true), out.2) := by
    rw [Job.runOn_run_of_filled ((b.runOn_fill_under .strict).trans hfill), hfinish]
    rfl
  exact runOn_conclude_of_verified hrun rfl

/-- Under the advisory policy the job answers as soon as the output is in its place. -/
theorem runOn_job_advisory {settled : Bench}
    (hfill : runOn b.job.fill b.start = (.ok filled, w₁))
    (hsettle : runOn b.job.settle (filled.2.2, w₁) = (.ok b.job.path, settled)) :
    runOn (b.under .advisory).job.run (b.under .advisory).start =
      (.ok (b.summary filled false), settled.2) := by
  have hnone : (b.under .advisory).job.expected = none := rfl
  have hfinish : runOn (b.under .advisory).job.finish (filled.2.2, w₁) =
      (.ok b.job.path, settled) := by
    rw [Job.finish_of_none hnone]
    exact hsettle
  rw [Job.runOn_run_of_filled ((b.runOn_fill_under .advisory).trans hfill), hfinish]
  rfl

/-- The advisory policy puts the output into its place, and then the digest is compared. -/
theorem runOn_conclude_advisory {settled : Bench}
    (hfill : runOn b.job.fill b.start = (.ok filled, w₁))
    (hsettle : runOn b.job.settle (filled.2.2, w₁) = (.ok b.job.path, settled)) :
    runOn (b.under .advisory).conclude (b.under .advisory).start =
      runOn (confirm b.job.path b.order.digest >>= fun _ =>
        pure (b.outcome (b.summary filled false))) settled.2 := by
  have hconclude := runOn_conclude (runOn_job_advisory hfill hsettle) rfl
  rw [outcome_under] at hconclude
  exact hconclude

/-- **An output with another digest is discarded under the strict policy.** -/
theorem exists_discarded (h : b.CanPublish)
    (hfill : runOn b.job.fill b.start = (.ok filled, w₁))
    (hne : Digest.sha1Hex (Bench.bytes (filled.2.2, w₁)) ≠ b.order.digest) :
    ∃ ws, runOn (task.under .strict).run w =
        (.error (.failed (.rebuild (.digest b.order.digest
          (Digest.sha1Hex (Bench.bytes (filled.2.2, w₁)))))), b.fetched.released ws) ∧
      ws.net = w₁.net ∧ b.Discards (b.fetched.released ws) := by
  have hsettle := h.canSettle hfill
  obtain ⟨b₁, hopens, hcarries⟩ := (fills hfill).opened
  obtain ⟨_, out, hrun, rfl, hnet, b₂, ht, hdisk⟩ :=
    ((b.under .strict).job.ends_finish_of_mismatch hsettle.willing rfl hne rfl).exists_error
  have hr := b.fetched.released_released out.2
  have hjob : runOn (b.under .strict).job.run (b.under .strict).start =
      (.error (.failed (.digest b.order.digest
        (Digest.sha1Hex (Bench.bytes (filled.2.2, w₁))))), out.2) := by
    rw [Job.runOn_run_of_filled ((b.runOn_fill_under .strict).trans hfill), hrun]
    rfl
  have hstrict := (b.under .strict).runOn_run
  rw [runOn_conclude_of_error hjob] at hstrict
  refine ⟨out.2, hstrict, hnet, fun hdest => ?_, fun path hdest => ?_⟩
  · obtain ⟨hsite, _, hspares⟩ := hopens.staged hdest hcarries
    rcases ((b.under .strict).job.ends_finish_of_staged _ hsite).of_error hrun with
      ⟨⟨hs, _⟩ | ⟨⟨_, _, _, hpolicy, _⟩, _⟩, _⟩
    · exact b.arrives.spares (hspares.trans hs) hr
    · cases hpolicy
  · obtain ⟨s, _, _, hpath, ⟨hsite, mode, time, hw⟩, _⟩ := hopens.leadsTo hdest hcarries
    refine lacks_released ?_ hr
    have hdiscard : b₂.1.discard = remove path := by
      rw [Writer.discard_of_site (ht.site.trans hsite), ht.path, hpath]
    have hcan : b₂.2.disk.CanRemove path := by
      rw [hpath, ← ht.world.disk.tree, ← ht.world.disk.cwd] at hw
      exact canRemove_of_walk hw nofun
    have hends : b₂.1.discard.Ends b₂.2.disk (fun _ d => d.Lacks path) fun _ d => d.Lacks path := by
      rw [hdiscard]
      exact (ends_remove_of_willing ht.world.disk.other hcan).mono (fun _ _ h => h)
        fun _ _ hno => hno.elim
    rw [hdisk]
    exact hends.state

/-- **Under the advisory policy an output with another digest is refused** when it is in its
place. -/
theorem exists_refused (h : b.CanPublish) (hcuts : ¬ b.Cuts)
    (hfill : runOn b.job.fill b.start = (.ok filled, w₁))
    (hne : Digest.sha1Hex (Bench.bytes (filled.2.2, w₁)) ≠ b.order.digest) :
    ∃ wa, runOn (task.under .advisory).run w =
        (.error (.failed (.rebuild (.digest b.order.digest
          (Digest.sha1Hex (Bench.bytes (filled.2.2, w₁)))))), b.fetched.released wa) ∧
      wa.net = w₁.net ∧ b.Placed (Bench.bytes (filled.2.2, w₁)) wa := by
  obtain ⟨settled, hsettle, hwilling, hnet, hplaced⟩ := exists_settled h hfill
  obtain ⟨place, hfile⟩ := hplaced.found hcuts
  have hconfirm := ends_confirm_of_willing hwilling hfile b.order.digest
  obtain ⟨_, wa, hconfirmed, rfl, _, hnet', hkept⟩ :=
    (hconfirm.mono (fun _ _ h => hne h.1) fun _ _ h => h).exists_error
  have hadvisory := runOn_conclude_advisory hfill hsettle
  rw [runOn_bind, hconfirmed] at hadvisory
  refine ⟨wa, ?_, hnet'.trans hnet, hplaced.kept hkept⟩
  rw [(b.under .advisory).runOn_run, hadvisory]
  rfl

/-- **An output with the digest of the descriptor is delivered under the strict policy**: comparing
the digest before it is put into its place makes no difference. -/
theorem exists_compared {settled : Bench} (h : b.CanPublish)
    (hfill : runOn b.job.fill b.start = (.ok filled, w₁))
    (heq : Digest.sha1Hex (Bench.bytes (filled.2.2, w₁)) = b.order.digest)
    (hsettle : runOn b.job.settle (filled.2.2, w₁) = (.ok b.job.path, settled)) :
    ∃ ws, runOn (task.under .strict).run w =
        (.ok (b.outcome (b.summary filled true)), b.fetched.released ws) ∧ ws.Twin settled.2 := by
  have hexpected : (b.under .strict).job.expected =
      some (Digest.sha1Hex (Bench.bytes (filled.2.2, w₁))) := by
    rw [heq]
    rfl
  have hends : b.job.settle.Ends (filled.2.2, w₁)
      (fun path out => path = b.job.path ∧ out = settled) fun _ _ => False :=
    (ends_of_ok hsettle).mpr ⟨rfl, rfl⟩
  have halike := (b.under .strict).job.alike_finish (h.canSettle hfill).willing hexpected
  obtain ⟨_, out, hfinish, _, htwin, rfl, rfl⟩ :=
    ((halike.ends hends).mono (fun _ _ h => h) fun _ _ ⟨_, _, hno⟩ => hno).exists_ok
  refine ⟨out.2, ?_, htwin⟩
  rw [(b.under .strict).runOn_run, runOn_conclude_strict hfill hfinish]
  rfl

/-- **It is delivered under the advisory policy** if its path leads to it, so that its digest can be
compared afterwards. -/
theorem exists_confirmed {settled : Bench} {place : Location}
    (hfill : runOn b.job.fill b.start = (.ok filled, w₁))
    (heq : Digest.sha1Hex (Bench.bytes (filled.2.2, w₁)) = b.order.digest)
    (hsettle : runOn b.job.settle (filled.2.2, w₁) = (.ok b.job.path, settled))
    (hwilling : settled.2.disk.IsWilling)
    (hfile : settled.2.disk.FileAt b.job.path place (Bench.bytes (filled.2.2, w₁))) :
    ∃ wa, runOn (task.under .advisory).run w =
        (.ok (b.outcome (b.summary filled false)), b.fetched.released wa) ∧
      settled.2.Twin wa ∧ settled.2.disk.Kept wa.disk := by
  have hconfirm := ends_confirm_of_willing hwilling hfile b.order.digest
  obtain ⟨_, wa, hconfirmed, _, htwin, hkept⟩ :=
    (hconfirm.mono (fun _ _ h => h) fun _ _ hno => hno.2.1 heq).exists_ok
  have hadvisory := runOn_conclude_advisory hfill hsettle
  rw [runOn_bind, hconfirmed] at hadvisory
  refine ⟨wa, ?_, htwin, hkept⟩
  rw [(b.under .advisory).runOn_run, hadvisory]
  rfl

/-- **An output with the digest of the descriptor** is delivered under both policies. -/
theorem agree_of_match (h : b.CanPublish) (hcuts : ¬ b.Cuts)
    (hfill : runOn b.job.fill b.start = (.ok filled, w₁))
    (heq : Digest.sha1Hex (Bench.bytes (filled.2.2, w₁)) = b.order.digest) :
    Agree task w (runOn (task.under .strict).run w) (runOn (task.under .advisory).run w) := by
  obtain ⟨settled, hsettle, hwilling, _, hplaced⟩ := exists_settled h hfill
  obtain ⟨place, hfile⟩ := hplaced.found hcuts
  obtain ⟨ws, hstrict, htwin⟩ := exists_compared h hfill heq hsettle
  obtain ⟨wa, hadvisory, htwin', hkept⟩ := exists_confirmed hfill heq hsettle hwilling hfile
  rw [hstrict, hadvisory]
  have hboth : (b.fetched.released ws).Twin (b.fetched.released wa) :=
    (b.fetched.respects_release _ _ (htwin.trans htwin')).2
  have hr := b.fetched.released_released wa
  exact .delivered b rfl heq hboth ((hplaced.kept hkept).keeps hcuts hr)

/-- **An output with another digest** is refused under both policies. -/
theorem agree_of_mismatch (h : b.CanPublish) (hcuts : ¬ b.Cuts)
    (hfill : runOn b.job.fill b.start = (.ok filled, w₁))
    (hne : Digest.sha1Hex (Bench.bytes (filled.2.2, w₁)) ≠ b.order.digest) :
    Agree task w (runOn (task.under .strict).run w) (runOn (task.under .advisory).run w) := by
  obtain ⟨ws, hstrict, hnet, hdiscards⟩ := exists_discarded h hfill hne
  obtain ⟨wa, hadvisory, hnet', hplaced⟩ := exists_refused h hcuts hfill hne
  rw [hstrict, hadvisory]
  have hnets : (b.fetched.released wa).net = (b.fetched.released ws).net := by
    rw [Fetched.net_released, Fetched.net_released, hnet', hnet]
  have hr := b.fetched.released_released wa
  exact .mismatched b (fills hfill).makes hne hnets hdiscards (hplaced.keeps hcuts hr)

end Briefing

/-- **The two policies give the same verdict.** -/
theorem policies_agree (task : SyncTask) (w : World)
    (h : ∀ b : Briefing task w, b.CanPublish ∧ ¬ b.Cuts) :
    Agree task w (runOn (task.under .strict).run w) (runOn (task.under .advisory).run w) := by
  rcases Classical.em (∃ _ : Briefing task w, True) with ⟨b, _⟩ | hno
  · obtain ⟨hpublish, hcuts⟩ := h b
    rcases hfill : runOn b.job.fill b.start with ⟨cause | filled, w₁⟩
    · exact Briefing.agree_of_unfilled hfill
    · by_cases heq : Digest.sha1Hex (Bench.bytes (filled.2.2, w₁)) = b.order.digest
      · exact Briefing.agree_of_match hpublish hcuts hfill heq
      · exact Briefing.agree_of_mismatch hpublish hcuts hfill heq
  · have hunknown : Briefing task w → False := fun b => hno ⟨b, trivial⟩
    rw [runOn_run_under hunknown, runOn_run_under hunknown]
    have hends : task.run.Ends w (fun _ _ => False) fun _ _ => True :=
      task.ends_run w (fun _ _ _ _ => trivial) fun b => (hunknown b).elim
    obtain ⟨cause, w', hrun, _⟩ := hends.exists_error
    rw [hrun]
    exact .stopped

/-- The task that replaces the seed by the file of three bytes, under the strict policy. -/
def renewing : SyncTask :=
  (forThreeBytes "/seed" none).under .strict

/-- Such a task has the same outcome under both policies. -/
theorem policies_agree_renewing :
    (∀ b : Briefing renewing .withThreeBytes, b.CanPublish ∧ ¬ b.Cuts) ∧
      ∃ o ws wa, o.summary.isVerified = true ∧ ws.Twin wa ∧
        runOn (renewing.under .strict).run .withThreeBytes = (.ok o, ws) ∧
        runOn (renewing.under .advisory).run .withThreeBytes = (.ok o.unverified, wa) := by
  have hseed : World.withThreeBytes.disk.FileAt renewing.seed ["seed"] [97, 98, 99] :=
    World.fileAt_seed _
  have hroom : renewing.settings.reconstruction.downloadChunkSize.count.toNat <
      Origin.roomLimit := by decide
  obtain ⟨b, htemp, hdigest, hsuits⟩ := exists_briefing_of_threeBytes rfl rfl rfl rfl hroom hseed
    (Descriptor.read_threeBytesText Digest.isDigest_ofThreeBytes) rfl
    (Descriptor.digest_threeBytes Digest.isDigest_ofThreeBytes) rfl fun _ _ _ => rfl
  have hready (b' : Briefing renewing .withThreeBytes) : b'.CanPublish ∧ ¬ b'.Cuts :=
    ⟨Briefing.canPublish_of_seed hsuits.obliging hseed, Briefing.not_cuts_of_fileAt hseed⟩
  refine ⟨hready, ?_⟩
  obtain ⟨o, ws, hstrict, _⟩ :=
    hsuits.exists_outcome_of_seed (b.destination_eq rfl)
      (hdigest.trans Digest.sha1Hex_threeBytes.symm) htemp hseed
  have hsame : runOn (renewing.under .strict).run .withThreeBytes = (.ok o, ws) := hstrict
  have hagree := policies_agree renewing .withThreeBytes hready
  rw [hsame] at hagree
  generalize runOn (renewing.under .advisory).run .withThreeBytes = advised at hagree ⊢
  cases hagree with
  | delivered _ hverified _ htwin _ => exact ⟨o, ws, _, hverified, htwin, hstrict, rfl⟩

/-- **Under the advisory policy a path that was cut off is found out.** -/
theorem Briefing.runOn_advisory_of_cuts {b : Briefing task w} {filled : UInt64 × UInt64 × Writer}
    {w₁ : World} (h : b.CanPublish) (hcuts : b.Cuts)
    (hfill : runOn b.job.fill b.start = (.ok filled, w₁)) :
    ∃ w', runOn (task.under .advisory).run w =
      (.error (.failed (.rebuild (.files .notADirectory))), w') := by
  obtain ⟨settled, hsettle, hwilling, _, hplaced⟩ := exists_settled h hfill
  obtain ⟨_, w', hconfirmed, rfl⟩ :=
    (ends_confirm_of_missing hwilling (hplaced.missing? hcuts) b.order.digest).exists_error
  have hadvisory := runOn_conclude_advisory hfill hsettle
  rw [runOn_bind, hconfirmed] at hadvisory
  rw [(b.under .advisory).runOn_run, hadvisory]
  exact ⟨_, rfl⟩

/-- **Without the exception the statement fails**: nothing is in the way of the commit, and one run
has an outcome where the other one fails. -/
theorem crossing_divides_policies :
    (∃ b : Briefing crossing .withEmptyFile, b.CanPublish) ∧
      ∃ o ws wa, runOn (crossing.under .strict).run .withEmptyFile = (.ok o, ws) ∧
        runOn (crossing.under .advisory).run .withEmptyFile =
          (.error (.failed (.rebuild (.files .notADirectory))), wa) := by
  obtain ⟨b, o, ws, hkept, hcan, hcuts, hstrict, _⟩ := exists_outcome_crossing
  have hpublish : b.CanPublish :=
    Briefing.canPublish_of_obliging World.isObliging_withEmptyFile fun _ => hcan.congr hkept
  -- the run has an outcome, so the output was filled
  rcases hfill : runOn b.job.fill b.start with ⟨cause | filled, w₁⟩
  · rw [b.runOn_run,
      Briefing.runOn_conclude_of_error (Job.runOn_run_of_unfilled hfill)] at hstrict
    cases hstrict
  · obtain ⟨wa, hadvisory⟩ := Briefing.runOn_advisory_of_cuts hpublish hcuts hfill
    exact ⟨⟨b, hpublish⟩, o, ws, wa, hstrict, hadvisory⟩

end SyncTask
end RangeSync
