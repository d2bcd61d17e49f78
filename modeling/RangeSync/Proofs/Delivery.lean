import RangeSync.Proofs.Grammar
import RangeSync.Proofs.Run
import RangeSync.Proofs.Sync

/-!
# What a task delivers

A task that succeeds answers with an outcome, and the file is there: it has the length and the
digest of the descriptor. Under the strict policy the job has compared the digest before it put the
file into its place, under the advisory policy the task has compared it afterwards, by way of the
path. The second comparison is the stronger one, because it finds out whether the path leads to the
file at all.

* `RangeSync.SyncTask.Briefing.Delivers` – what holds when a task has succeeded;
* `RangeSync.SyncTask.ends_run_delivers` – **a task delivers or fails**, and it fails only if
  something is in its way (`RangeSync.SyncTask.Briefing.CanSucceed`);
* `RangeSync.SyncTask.Briefing.Suits` – what a task knows suits a file, and then nothing but the
  place of the output and the digest can be in its way (`RangeSync.SyncTask.Briefing.Suits.canSucceed`).

Two things are set apart. A path of a seed that retraces its end is cut off when the seed is
replaced (`RangeSync.SyncTask.Briefing.Cuts`); and whoever names the temporary copy of the
descriptor as the output will see it removed (`RangeSync.SyncTask.Briefing.IsApart`).
-/

namespace RangeSync

open Act Disk

/-! ### Orders -/

namespace Order

variable {source url : Url} {d : Descriptor} {length : UInt64} {digest text : String}

/-- **What an order says** is what the descriptor says. -/
theorem of_ofDescriptor {order : Order} {log : List Entry}
    (h : ofDescriptor source d = .ok (order, log)) :
    d.length = .ok order.length ∧ d.digest = .ok order.digest ∧
      (∃ text, d.url = .ok text ∧ Descriptor.resolve source.toText text = .ok order.url) ∧
      order.mtime = d.mtime.toOption.join := by
  unfold ofDescriptor at h
  rcases hlength : d.length with _ | length
  · rw [hlength] at h
    cases h
  rcases hdigest : d.digest with _ | digest
  · rw [hlength, hdigest] at h
    cases h
  rcases htext : d.url with _ | text
  · rw [hlength, hdigest, htext] at h
    cases h
  rcases hurl : Descriptor.resolve source.toText text with _ | url
  · rw [hlength, hdigest, htext] at h
    change (Descriptor.resolve source.toText text >>= _) = _ at h
    rw [hurl] at h
    cases h
  rw [hlength, hdigest, htext] at h
  change (Descriptor.resolve source.toText text >>= _) = _ at h
  rw [hurl] at h
  cases h
  exact ⟨rfl, rfl, ⟨text, rfl, hurl⟩, rfl⟩

/-- A descriptor that has everything makes an order. -/
theorem exists_ofDescriptor (hlength : d.length = .ok length) (hdigest : d.digest = .ok digest)
    (htext : d.url = .ok text) (hurl : Descriptor.resolve source.toText text = .ok url) :
    ∃ order log, ofDescriptor source d = .ok (order, log) ∧ order.length = length ∧
      order.digest = digest ∧ order.url = url := by
  unfold ofDescriptor
  rw [hlength, hdigest, htext]
  change ∃ order log, (Descriptor.resolve source.toText text >>= _) = _ ∧ _
  rw [hurl]
  exact ⟨_, _, rfl, rfl, rfl, rfl⟩

end Order

namespace SyncTask.Briefing

variable {task : SyncTask} {w w' w₁ w₂ : World} {b : Briefing task w} {bytes : List UInt8}
  {place : Location} {seed file : List UInt8}

/-! ### Paths that get lost -/

/-- The job replaces a seed whose path retraces its end. -/
def Cuts (b : Briefing task w) : Prop :=
  b.job.destination = .replaceSeed ∧ b.start.disk.tree.Retraces b.start.disk.cwd task.seed

/-- The output is not put into the place of the temporary copy of the descriptor. -/
def IsApart (b : Briefing task w) : Prop :=
  ∀ temporary e, b.fetched.temporary = some temporary →
    b.start.disk.tree.walk b.start.disk.cwd b.job.follows b.job.path ≠ .ok (.taken temporary e)

/-- What is in the temporary file when the job is run. -/
theorem temporary_file (b : Briefing task w) {temporary : Location}
    (htemp : b.fetched.temporary = some temporary) :
    ∃ content mode time, b.start.disk.tree.get? temporary = some (.file content mode time) := by
  obtain ⟨content, hh⟩ := b.arrives.added temporary htemp
  exact ⟨content, privateMode, none, hh.file⟩

/-- An output apart from the temporary file is written elsewhere. -/
theorem IsApart.ne_place (h : b.IsApart) {temporary : Location}
    (htemp : b.fetched.temporary = some temporary) {s : Spot}
    (hw : b.start.disk.tree.walk b.start.disk.cwd b.job.follows b.job.path = .ok s)
    (hs : s.IsOpen) : temporary ≠ s.place := by
  rintro rfl
  obtain ⟨content, mode, time, hfile⟩ := b.temporary_file htemp
  have hnode : s.node? = some (.file content mode time) :=
    (Tree.get?_of_walk hw hs).symm.trans hfile
  cases s with
  | taken place e => exact h place e htemp hw
  | vacant => cases hnode

/-- **An output of its own goes elsewhere than the seed**: that is how the destination is chosen. -/
theorem isApartFrom_seed (hseed : b.start.disk.FileAt task.seed place seed) :
    b.job.IsApartFrom b.start.disk place := by
  intro path s hdest hw
  obtain ⟨_, hne⟩ := destinationOn_eq_file hdest
  have hplace : b.start.disk.placeOf? task.seed = some place := hseed.placeOf?
  rintro rfl
  cases s with
  | taken place' e =>
    refine hne place' hplace ?_
    change b.start.disk.placeOf? path = some place'
    rw [Disk.placeOf?, hw]
  | vacant folder name =>
    -- nothing is where the output goes, but there is a seed
    obtain ⟨mode, time, hfile⟩ := hseed
    have hsome := Tree.get?_of_walk hfile trivial
    have hnone := Tree.get?_of_walk hw trivial
    cases hnone.symm.trans hsome

/-! ### When the job is done -/

/-- **The output is in its place**: its path leads to it, unless the path was cut off, and nothing
else is different. -/
structure Placed (b : Briefing task w) (bytes : List UInt8) (w' : World) : Prop where
  found : ¬ b.Cuts → ∃ place, w'.disk.FileAt b.job.path place bytes
  lost : b.Cuts → ∀ place e,
    w'.disk.tree.walk w'.disk.cwd true b.job.path ≠ .ok (.taken place e)
  site : ∃ s, b.start.disk.tree.walk b.start.disk.cwd b.job.follows b.job.path = .ok s ∧
    s.IsOpen ∧ Tree.SameOff s.place b.start.disk.tree w'.disk.tree ∧
    (∃ mode time, w'.disk.tree.get? s.place = some (.file bytes mode time)) ∧
    ∀ place, w'.disk.FileAt b.job.path place bytes → place = s.place
  cwd : w'.disk.cwd = b.start.disk.cwd
  refuses : w'.disk.refuses = b.start.disk.refuses

/-- An output of its own. -/
theorem placed_of_site {path : String} {s : Spot} (hdest : b.job.destination = .file path)
    (hw : b.start.disk.tree.walk b.start.disk.cwd true path = .ok s) (hs : s.IsOpen)
    (hfile : w'.disk.FileAt path s.place bytes)
    (halong : Along (Tree.SameOff s.place b.start.disk.tree) b.start.disk w'.disk) :
    b.Placed bytes w' := by
  have hpath := Job.path_of_file hdest
  constructor
  · intro _
    rw [hpath]
    exact ⟨s.place, hfile⟩
  · rintro ⟨hseed, _⟩
    rw [hdest] at hseed
    cases hseed
  · rw [hpath, Job.follows_of_file hdest]
    refine ⟨s, hw, hs, halong.tree (Tree.SameOff.refl _ _), hfile.get?, fun place hfile' => ?_⟩
    exact Option.some.inj (hfile'.placeOf?.symm.trans hfile.placeOf?)
  · exact halong.cwd
  · exact halong.refuses

/-- An output that was committed. -/
theorem placed_of_commits (hdest : b.job.destination = .replaceSeed)
    (hc : Writer.Commits b.start.disk task.seed bytes w'.disk) : b.Placed bytes w' := by
  have hpath : b.job.path = task.seed := Job.path_of_replaceSeed hdest
  have hcwd := hc.2.cwd
  constructor
  · intro hcuts
    have hr : ¬ b.start.disk.tree.Retraces b.start.disk.cwd task.seed := fun hr =>
      hcuts ⟨hdest, hr⟩
    obtain ⟨place, mode, time, hw⟩ := hc.1.walk_of_not_retraces hr
    rw [hpath]
    exact ⟨place, mode, time, hcwd ▸ hw⟩
  · rintro ⟨_, hr⟩ place e hw
    rw [hpath, hcwd, hc.1.walk_of_retraces hr] at hw
    cases hw
  · rw [hpath, Job.follows_of_replaceSeed hdest]
    obtain ⟨s, mode, time, hs, hopen, hoff, hget, _⟩ := hc.1
    refine ⟨s, hs, hopen, hoff, ⟨mode, time, hget⟩, ?_⟩
    rintro place ⟨mode, time, hw⟩
    rw [hcwd] at hw
    obtain ⟨_, _, _, s', hs', hplace⟩ := hc.1.walk hw
    obtain rfl := Except.ok.inj (hs.symm.trans hs')
    exact hplace.symm
  · exact hcwd
  · exact hc.2.refuses

theorem Placed.kept (h : b.Placed bytes w₁) (hk : w₁.disk.Kept w₂.disk) : b.Placed bytes w₂ := by
  constructor
  · intro hcuts
    obtain ⟨place, hfile⟩ := h.found hcuts
    refine ⟨place, ?_⟩
    rwa [FileAt, hk.tree, hk.cwd]
  · rw [hk.tree, hk.cwd]
    exact h.lost
  · unfold FileAt
    rw [hk.tree, hk.cwd]
    exact h.site
  · exact hk.cwd.trans h.cwd
  · exact hk.refuses.trans h.refuses

/-! ### When the descriptor is given back -/

/-- The file is still found at its path. -/
theorem Placed.fileAt_released (h : b.Placed bytes w₁) (hapart : b.IsApart)
    (hfile : w₁.disk.FileAt b.job.path place bytes) (hr : b.fetched.Released w₁ w') :
    w'.disk.FileAt b.job.path place bytes := by
  rcases htemp : b.fetched.temporary with _ | temporary
  · rw [hr.kept htemp]
    exact hfile
  · obtain ⟨s, hs, hopen, hoff, _, hplace⟩ := h.site
    obtain rfl := hplace place hfile
    have hne := hapart.ne_place htemp hs hopen
    -- the temporary file is another file, so the path does not come by it
    obtain ⟨content, mode', time', hcopy⟩ := b.temporary_file htemp
    have hget := (hoff temporary hne).trans hcopy
    have ht := hr.dropped temporary htemp
    obtain ⟨mode, time, hw⟩ := hfile
    refine ⟨mode, time, ?_⟩
    rw [ht.cwd, ht.tree]
    exact Tree.walk_past hw (Tree.ne_nil_of_file hget) (Or.inr ⟨_, _, _, hget⟩) (Ne.symm hne)
      (Tree.sameOff_erase _ _)

/-- **The bytes were put where the path of the output ends**, and every other entry is as it was
before the task. -/
def Puts (b : Briefing task w) (bytes : List UInt8) (w' : World) : Prop :=
  ∃ s mode time, w.disk.tree.walk w.disk.cwd b.job.follows b.job.path = .ok s ∧ s.IsOpen ∧
    Tree.SameOff s.place w.disk.tree w'.disk.tree ∧
    w'.disk.tree.get? s.place = some (.file bytes mode time)

theorem Placed.puts (h : b.Placed bytes w₁) (hapart : b.IsApart) (hr : b.fetched.Released w₁ w') :
    b.Puts bytes w' := by
  obtain ⟨s, hs, hopen, hoff, ⟨mode, time, hget⟩, _⟩ := h.site
  obtain ⟨s', hs', hplace, hopen'⟩ := b.arrives.walk_before hs hopen
  refine ⟨s', mode, time, hs', hopen', ?_, ?_⟩
  · rw [hplace]
    exact b.arrives.sameOff hoff hr
  · rw [hplace]
    rcases htemp : b.fetched.temporary with _ | temporary
    · rw [hr.kept htemp]
      exact hget
    · have hne := hapart.ne_place htemp hs hopen
      rw [(hr.dropped temporary htemp).tree, Tree.get?_erase_of_ne hne.symm]
      exact hget

/-- An output that is not apart goes into the place of the temporary file. -/
theorem exists_temporary (hapart : ¬ b.IsApart) :
    ∃ temporary e, b.fetched.temporary = some temporary ∧
      b.start.disk.tree.walk b.start.disk.cwd b.job.follows b.job.path =
        .ok (.taken temporary e) := by
  apply Classical.byContradiction
  exact fun hno => hapart fun temporary e htemp hs => hno ⟨temporary, e, htemp, hs⟩

/-- An output in the place of the temporary file leaves no trace. -/
theorem Placed.same (h : b.Placed bytes w₁) (hapart : ¬ b.IsApart)
    (hr : b.fetched.Released w₁ w') : w.disk.tree.Same w'.disk.tree := by
  obtain ⟨temporary, e, htemp, hstart⟩ := exists_temporary hapart
  obtain ⟨s, hs, _, hoff, _⟩ := h.site
  obtain rfl := Except.ok.inj (hs.symm.trans hstart)
  exact b.arrives.same htemp hoff hr

/-- An output in the place of the temporary file is removed with it. -/
theorem Placed.removed (h : b.Placed bytes w₁) (hapart : ¬ b.IsApart)
    (hr : b.fetched.Released w₁ w') (content : List UInt8) :
    ¬ w'.disk.FileAt b.job.path place content := by
  rintro ⟨mode, time, hw⟩
  obtain ⟨temporary, e, htemp, hstart⟩ := exists_temporary hapart
  obtain ⟨s, hs, hopen, hoff, _⟩ := h.site
  obtain rfl := Except.ok.inj (hs.symm.trans hstart)
  obtain ⟨_, _, _, hcopy⟩ := b.temporary_file htemp
  have hnode : some e = _ := (Tree.get?_of_walk hs hopen).symm.trans hcopy
  -- the temporary file is no link, so the path leads to it in either way
  have hfollowed : b.start.disk.tree.walk b.start.disk.cwd true b.job.path =
      .ok (.taken temporary e) := by
    rcases hfollows : b.job.follows with _ | _
    · rw [hfollows] at hs
      refine Tree.walk_followed hs fun target hlink => ?_
      cases hnode.symm.trans hlink
    · rwa [hfollows] at hs
  have ht := hr.dropped temporary htemp
  have hgone : w'.disk.tree.get? temporary = none := by
    rw [ht.tree]
    exact Tree.get?_erase_self (Tree.ne_nil_of_file hcopy)
  have hoff' : Tree.SameOff temporary b.start.disk.tree w'.disk.tree := by
    rw [ht.tree]
    exact hoff.trans (Tree.sameOff_erase _ _)
  obtain ⟨folder, name, _, hvacant⟩ := Tree.walk_removed hfollowed hopen hoff' hgone
  rw [ht.cwd, h.cwd, hvacant] at hw
  cases hw

/-- A path that is cut off stays so. -/
theorem Placed.not_fileAt_released (h : b.Placed bytes w₁) (hcuts : b.Cuts)
    (hr : b.fetched.Released w₁ w') (place : Location) (content : List UInt8) :
    ¬ w'.disk.FileAt b.job.path place content := by
  rintro ⟨mode, time, hw⟩
  rcases htemp : b.fetched.temporary with _ | temporary
  · rw [hr.kept htemp] at hw
    exact h.lost hcuts _ _ hw
  · have ht := hr.dropped temporary htemp
    rw [ht.cwd, ht.tree] at hw
    -- with the temporary file there is one entry more, so the path would have led to the same file
    obtain ⟨_, _, _, hcopy⟩ := b.temporary_file htemp
    exact h.lost hcuts _ _ (Tree.walk_keeps (Tree.keeps_erase (Tree.ne_nil_of_file hcopy)) hw)

/-! ### What is delivered -/

/-- The digest was compared before the file was put into its place, and its path was cut off. -/
def Breaks (b : Briefing task w) : Prop :=
  task.settings.reconstruction.integrityPolicy = .strict ∧ b.Cuts

/-- **What a task has delivered** that answered with an outcome. -/
structure Delivers (b : Briefing task w) (o : Outcome) (bytes : List UInt8) (w' : World) :
    Prop where
  length : o.length = b.order.length
  digest : o.digest = b.order.digest
  path : o.summary.path = b.job.path
  reused : o.summary.reused.toNat = b.plan.reused
  downloaded : o.summary.downloaded.toNat = b.plan.downloaded
  requests : o.summary.requests = b.plan.download.length
  size : bytes.length = o.length.toNat
  sha1 : Digest.sha1Hex bytes = o.digest
  exact : ∀ place seed file,
    b.job.CanFill b.start place seed (b.plan.download.map (·.slice file)) →
    bytes = patched (List.replicate b.order.length.toNat 0)
      (b.plan.reuse.map (·.slice seed) ++ b.plan.download.map (·.slice file))
  seeded : ∀ place seed, w.disk.FileAt task.seed place seed →
    b.plan.MakesFrom seed b.order.length.toNat bytes
  puts : b.IsApart → b.Puts bytes w'
  same : ¬ b.IsApart → w.disk.tree.Same w'.disk.tree
  cwd : w'.disk.cwd = w.disk.cwd
  found : b.IsApart → ¬ b.Breaks → ∃ place, w'.disk.FileAt o.summary.path place bytes
  lost : ¬ (b.IsApart ∧ ¬ b.Breaks) → ∀ place content, ¬ w'.disk.FileAt o.summary.path place content

/-- **Nothing is in the way of a task.** -/
structure CanSucceed (b : Briefing task w) (place : Location) (seed file : List UInt8) :
    Prop where
  run : b.job.CanRun b.start place seed (b.plan.download.map (·.slice file))
  digest : Digest.sha1Hex (patched (List.replicate b.order.length.toNat 0)
    (b.plan.reuse.map (·.slice seed) ++ b.plan.download.map (·.slice file))) = b.order.digest
  whole : task.settings.reconstruction.integrityPolicy = .advisory → ¬ b.Cuts

/-- A job that is done is a delivery once its digest is known to be right. -/
theorem delivers {summary : Summary} (ha : b.job.Achieves b.start summary bytes)
    (hp : b.Placed bytes w₁) (hdigest : Digest.sha1Hex bytes = b.order.digest)
    (hcuts : task.settings.reconstruction.integrityPolicy = .advisory → ¬ b.Cuts)
    (hr : b.fetched.Released w₁ w') : b.Delivers (b.outcome summary) bytes w' := by
  have hpath : (b.outcome summary).summary.path = b.job.path := ha.path
  have hlength : bytes.length = (b.outcome summary).length.toNat := ha.length
  refine ⟨rfl, rfl, hpath, ha.reused, ha.downloaded, ha.requests, hlength, hdigest,
    fun place seed file hc => ha.exact place seed _ hc, fun place seed hseed => ?_,
    fun hapart => hp.puts hapart hr, fun hapart => hp.same hapart hr,
    hr.cwd.trans (hp.cwd.trans b.arrives.along.cwd), ?_, ?_⟩
  · have hstart := b.arrives.fileAt hseed
    exact ha.seeded place seed hstart (isApartFrom_seed hstart)
  · intro hapart hbreaks
    have hno : ¬ b.Cuts := by
      intro hc
      rcases hpolicy : task.settings.reconstruction.integrityPolicy with _ | _
      all_goals first | exact hcuts hpolicy hc | exact hbreaks ⟨hpolicy, hc⟩
    obtain ⟨place, hfile⟩ := hp.found hno
    rw [hpath]
    exact ⟨place, hp.fileAt_released hapart hfile hr⟩
  · intro hno place content
    rw [hpath]
    by_cases hapart : b.IsApart
    · have hbreaks : b.Breaks := Classical.byContradiction fun hb => hno ⟨hapart, hb⟩
      exact hp.not_fileAt_released hbreaks.2 hr place content
    · exact hp.removed hapart hr content

/-- **What is left to do when the job is done**: the digest is compared, unless it has been. -/
theorem ends_check {summary : Summary} (ha : b.job.Achieves b.start summary bytes)
    (hp : b.Placed bytes w₁) (post : Outcome → World → Prop) (fail : Stop SyncFault → World → Prop)
    (hpost : ∀ w₂, b.Placed bytes w₂ → Digest.sha1Hex bytes = b.order.digest →
      (task.settings.reconstruction.integrityPolicy = .advisory → ¬ b.Cuts) →
      post (b.outcome summary) w₂)
    (hfail : ∀ cause w₂, (∀ place seed file, ¬ b.CanSucceed place seed file) → fail cause w₂) :
    if summary.isVerified then post (b.outcome summary) w₁
    else (confirm summary.path b.order.digest).Ends w₁
      (fun _ w'' => post (b.outcome summary) w'') fail := by
  have hverified := ha.isVerified
  split
  · -- the job has compared the digest, so the policy is strict
    rename_i hyes
    rw [hverified, b.expected_eq] at hyes
    have hexpected := b.expected_eq
    split at hyes
    · rename_i hpolicy
      rw [hpolicy] at hexpected
      refine hpost w₁ hp (ha.digest _ hexpected) fun hadvisory => ?_
      rw [hpolicy] at hadvisory
      cases hadvisory
    · cases hyes
  · -- the digest is that of the file at the path, so the path was not cut off
    rename_i hno
    have hadvisory := b.advisory (hverified ▸ hno)
    rw [ha.path]
    refine (ends_confirm b.job.path b.order.digest w₁).mono ?_ ?_
    · rintro _ w₂ ⟨hk, place, e, hw, hdigest⟩
      have hcuts : ¬ b.Cuts := fun hc => hp.lost hc place e hw
      obtain ⟨place', hfile⟩ := hp.found hcuts
      obtain ⟨rfl, -⟩ := hfile.eq_of_walk hw
      rw [hfile.bytesAt] at hdigest
      exact hpost w₂ (hp.kept hk) hdigest fun _ => hcuts
    · rintro cause w₂ ⟨_, _, hnot⟩
      refine hfail cause w₂ fun place seed file hc => ?_
      obtain ⟨place', hfile⟩ := hp.found (hc.whole hadvisory)
      refine hnot place' bytes (hc.run.fill.obliging.congr hp.refuses) hfile ?_
      have hbytes := ha.exact place seed _ hc.run.fill
      rw [hbytes]
      exact hc.digest

end SyncTask.Briefing

/-- **A task delivers or fails**, and it fails only if something is in its way. -/
theorem SyncTask.ends_run_delivers (task : SyncTask) (w : World) :
    task.run.Ends w
      (fun o w' => ∃ (b : Briefing task w) (bytes : List UInt8), b.Delivers o bytes w')
      fun _ _ => ∀ (b : Briefing task w) (place : Location) (seed file : List UInt8),
        ¬ b.CanSucceed place seed file := by
  refine task.ends_run w ?_ ?_
  · intro cause w' hno _ b
    exact (hno b).elim
  · intro b
    have hnot (hno : ∀ place seed patches, ¬ b.job.CanRun b.start place seed patches)
        (b' : Briefing task w) (place : Location) (seed file : List UInt8) :
        ¬ b'.CanSucceed place seed file := by
      intro hc
      rw [b'.unique b] at hc
      exact hno place seed _ hc.run
    have hcheck {summary : Summary} {bytes : List UInt8} {w₁ : World}
        (ha : b.job.Achieves b.start summary bytes) (hp : b.Placed bytes w₁) :=
      Briefing.ends_check ha hp
        (fun o w' => ∀ w'', b.fetched.Released w' w'' →
          ∃ (b : Briefing task w) (bytes : List UInt8), b.Delivers o bytes w'')
        (fun _ w' => ∀ w'', b.fetched.Released w' w'' →
          ∀ (b : Briefing task w) (place : Location) (seed file : List UInt8),
            ¬ b.CanSucceed place seed file)
        (fun w₂ hp₂ hdigest hcuts w'' hr =>
          ⟨b, bytes, Briefing.delivers ha hp₂ hdigest hcuts hr⟩)
        fun cause w₂ hno w'' _ b' place seed file => by
          rw [b'.unique b]
          exact hno place seed file
    rcases hdest : b.job.destination with path | _
    · refine b.ends_conclude ((b.job.ends_run_of_file b.start hdest).mono ?_ ?_)
      · rintro summary w₁ ⟨bytes, s, ha, hw, hs, hfile, halong⟩
        exact hcheck ha (Briefing.placed_of_site hdest hw hs hfile halong)
      · rintro cause w₁ ⟨_, hno⟩ w' _
        exact hnot hno
    · refine b.ends_conclude ((b.job.ends_run_of_staged b.start hdest).mono ?_ ?_)
      · rintro summary w₁ ⟨bytes, ha, _, hcommit⟩
        exact hcheck ha (Briefing.placed_of_commits hdest hcommit)
      · rintro cause w₁ ⟨_, hno⟩ w' _
        exact hnot hno

/-- **A task that nothing is in the way of delivers.** -/
theorem SyncTask.Briefing.exists_outcome {task : SyncTask} {w : World} (b : Briefing task w)
    {place : Location} {seed file : List UInt8} (hc : b.CanSucceed place seed file) :
    ∃ o w' bytes, runOn task.run w = (.ok o, w') ∧ b.Delivers o bytes w' := by
  rcases hrun : runOn task.run w with ⟨cause | o, w'⟩
  · exact absurd hc ((task.ends_run_delivers w).of_error hrun b place seed file)
  · obtain ⟨b', bytes, h⟩ := (task.ends_run_delivers w).of_ok hrun
    obtain rfl := b'.unique b
    exact ⟨o, w', bytes, rfl, h⟩

/-- **What a task knows suits a file**: the descriptor gives its length and a URL at which the server
offers it, and the plan covers it and reuses only what the seed has in common with it. The system
refuses nothing, and there is room for the portions of the answers. -/
structure SyncTask.Briefing.Suits {task : SyncTask} {w : World} (b : Briefing task w)
    (place : Location) (seed file : List UInt8) : Prop where
  obliging : w.disk.IsObliging
  fits : b.plan.Fits seed file
  size : file.length ≤ fileLimit
  length : b.order.length = UInt64.ofNat file.length
  isSeed : b.plan.reuse ≠ [] → w.disk.FileAt task.seed place seed
  seedSize : seed.length ≤ fileLimit
  web : Http.isWeb b.order.url = true
  offers : Http.Offers w.net.server b.order.url file
  room : task.settings.reconstruction.downloadChunkSize.count.toNat < Origin.roomLimit

namespace SyncTask.Briefing.Suits

variable {task : SyncTask} {w : World} {b : Briefing task w} {place : Location}
  {seed file : List UInt8}

theorem patched_eq (h : b.Suits place seed file) :
    patched (List.replicate b.order.length.toNat 0)
      (b.plan.reuse.map (·.slice seed) ++ b.plan.download.map (·.slice file)) = file := by
  rw [h.length, UInt64.toNat_ofNat_of_lt' (Nat.lt_of_le_of_lt h.size (by decide))]
  exact h.fits.patched_eq h.size

/-- **Nothing is in the way of filling the output** if it can be opened. -/
theorem canFill (h : b.Suits place seed file)
    (hplace : ∀ path, b.job.destination = .file path → b.start.disk.CanCreate path ∧
      ∀ s, b.start.disk.tree.walk b.start.disk.cwd true path = .ok s → s.place ≠ place) :
    b.job.CanFill b.start place seed (b.plan.download.map (·.slice file)) := by
  have hword : (UInt64.ofNat file.length).toNat = file.length :=
    UInt64.toNat_ofNat_of_lt' (Nat.lt_of_le_of_lt h.size (by decide))
  have hcount : b.order.length.toNat = file.length := by
    rw [h.length, hword]
  have hinside := (Plan.isFor_of_check h.fits.check).download
  rw [hword] at hinside
  constructor
  case check =>
    change b.plan.check b.order.length = .ok ()
    rw [h.length]
    exact h.fits.check
  case obliging => exact h.obliging.congr b.arrives.along.refuses
  case opens => exact ⟨hcount ▸ h.size, fun path hdest => (hplace path hdest).1⟩
  case isSeed => exact fun hreuse => b.arrives.fileAt (h.isSeed hreuse)
  case apart => exact fun path s hdest hw => (hplace path hdest).2 s hw
  case source => exact fun r hr _ => h.fits.source r hr
  case reach =>
    intro r hr
    have := h.fits.source r hr
    have := h.seedSize
    omega
  case reused => exact h.fits.reused
  case steady =>
    refine ⟨fun r hr => ?_, h.fits.downloaded, h.room, fun t ht => ?_⟩
    · exact DownloadRange.length_ne_none (Nat.lt_of_lt_of_le (hinside r hr).2 h.size)
    · obtain ⟨_, _, rfl⟩ := Option.map_eq_some_iff.mp ht
      rfl
  case delivers =>
    refine Job.deliveries?_of_offers rfl h.web ?_ hinside
    rw [b.arrives.server]
    exact h.offers

/-- **Nothing is in the way of a task** that knows the digest of the file, if the output has a
place. -/
theorem canSucceed (h : b.Suits place seed file) (hdigest : b.order.digest = Digest.sha1Hex file)
    (hplace : ∀ path, b.job.destination = .file path → b.start.disk.CanCreate path ∧
      ∀ s, b.start.disk.tree.walk b.start.disk.cwd true path = .ok s → s.place ≠ place)
    (hsupplant : b.job.destination = .replaceSeed → Writer.CanSupplant b.start.disk task.seed)
    (hcuts : task.settings.reconstruction.integrityPolicy = .advisory → ¬ b.Cuts) :
    b.CanSucceed place seed file := by
  have hright := (congrArg Digest.sha1Hex h.patched_eq).trans hdigest.symm
  refine ⟨⟨h.canFill hplace, hsupplant, fun expected he => ?_⟩, hright, hcuts⟩
  rw [b.expected_eq] at he
  split at he
  · cases he
    exact hright
  · cases he

/-- In the place of a seed, no file has to be created. -/
theorem canFill_replacing (h : b.Suits place seed file)
    (hdest : b.job.destination = .replaceSeed) :
    b.job.CanFill b.start place seed (b.plan.download.map (·.slice file)) := by
  refine h.canFill fun path hpath => ?_
  cases hdest.symm.trans hpath

/-- What is delivered in the place of a seed is the file. -/
theorem bytes_eq {o : Outcome} {bytes : List UInt8} {w' : World} (h : b.Suits place seed file)
    (hdest : b.job.destination = .replaceSeed) (hd : b.Delivers o bytes w') : bytes = file :=
  (hd.exact place seed file (h.canFill_replacing hdest)).trans h.patched_eq

/-- **The file can be delivered** in the place of a seed, if there is a place. -/
theorem exists_outcome_replacing (h : b.Suits place seed file)
    (hdest : b.job.destination = .replaceSeed) (hdigest : b.order.digest = Digest.sha1Hex file)
    (htemp : b.fetched.temporary = none) (hsupplant : Writer.CanSupplant w.disk task.seed)
    (hcuts : task.settings.reconstruction.integrityPolicy = .advisory → ¬ b.Cuts) :
    ∃ o w', runOn task.run w = (.ok o, w') ∧ b.Delivers o file w' := by
  have hcan : b.CanSucceed place seed file := by
    refine h.canSucceed hdigest (fun path hpath => ?_)
      (fun _ => hsupplant.congr (b.arrives.kept htemp)) hcuts
    cases hdest.symm.trans hpath
  obtain ⟨o, w', bytes, hrun, hd⟩ := b.exists_outcome hcan
  exact ⟨o, w', hrun, h.bytes_eq hdest hd ▸ hd⟩

end SyncTask.Briefing.Suits

/-! ### How a task comes to know everything -/

/-- The name that the program gives itself can be sent. -/
theorem Http.Client.named_productName : Http.Client.named productName = .ok ⟨productName⟩ :=
  rfl

/-- The characters show whether a text is taken for a digest. -/
theorem Descriptor.isDigest_ofList {chars : List Char}
    (h : (chars.length == 40 && chars.all Text.isHexDigit) = true) :
    Descriptor.isDigest (String.ofList chars) = true := by
  rwa [Descriptor.isDigest, String.toList_ofList]

/-- The digest of a descriptor is the text of its header, if that is one. -/
theorem Descriptor.digest_of_text? {d : Descriptor} {digest : String}
    (htext : d.text? "SHA-1" = some digest) (h : Descriptor.isDigest digest = true) :
    d.digest = .ok digest := by
  rw [Descriptor.digest, htext]
  exact if_pos h

namespace SyncTask

variable {w found : World} {client : Http.Client} {fetched : Fetched}

/-- Reading a descriptor does not touch the programs. -/
theorem ends_order_programs (fetched : Fetched) (w : World) :
    (order fetched).Ends w
      (fun _ w' => w'.programs = w.programs ∧ w'.isVerbose = w.isVerbose) fun _ _ => True := by
  unfold order
  rw [ends_bind, Bench.ends_onDisk]
  refine (ends_self (contents fetched.path) w.disk).mono ?_ fun _ _ _ => trivial
  intro bytes disk _
  rw [ends_bind, ends_ofExcept]
  split
  · rw [ends_bind, ends_ofExcept]
    split
    · exact ⟨rfl, rfl⟩
    · trivial
  · trivial

/-- A descriptor in a file whose path is no URL. -/
theorem runOn_ofLocation {location : String} {fault : Url.Fault} {place : Location}
    {content : List UInt8} (hurl : Url.read location = .error fault)
    (hname : location.isEmpty = false)
    (hfile : w.disk.FileAt (Path.absolute w.disk.cwd.toPath location) place content) :
    runOn (Fetched.ofLocation client location) w =
      (.ok ⟨Path.absolute w.disk.cwd.toPath location,
        .ofFilePath (Path.absolute w.disk.cwd.toPath location), none⟩, w) := by
  unfold Fetched.ofLocation
  rw [hurl]
  exact Fetched.runOn_ofPath hname hfile

/-- **A task that finds its descriptor comes to know everything**: what the descriptor says, and
the plan. -/
theorem exists_briefing {task : SyncTask} {place : Location} {content rest : List UInt8}
    {d : Descriptor} {order : Order} {log : List Entry} {plan : Plan}
    (hnamed : Http.Client.named task.settings.client.userAgent = .ok client)
    (hfinds : runOn (Fetched.ofLocation client task.location) w = (.ok fetched, found))
    (hobliging : found.disk.IsObliging) (hfile : found.disk.FileAt fetched.path place content)
    (hread : Descriptor.read content = .ok (d, rest))
    (horder : Order.ofDescriptor fetched.url d = .ok (order, log))
    (hplan : ∀ read, runOn (SyncTask.order fetched) found = (.ok order, read) →
      (runOn (task.planner.plan fetched.path task.seed) read).1 = .ok plan) :
    ∃ b : Briefing task w, b.fetched = fetched ∧ b.order = order ∧ b.plan = plan ∧
      b.found = found := by
  have hends := ends_order fetched found
  rcases hreads : runOn (SyncTask.order fetched) found with ⟨cause | order', read⟩
  · obtain ⟨_, _, hnot⟩ := hends.of_error hreads
    exact absurd horder (hnot place content d rest _ hobliging hfile hread)
  · obtain ⟨_, place', e, d', rest', log', hw, hread', horder'⟩ := hends.of_ok hreads
    obtain ⟨rfl, -⟩ := hfile.eq_of_walk hw
    rw [hfile.bytesAt, hread] at hread'
    cases hread'
    rw [horder] at horder'
    cases horder'
    have hresult := hplan read hreads
    rcases hplans : runOn (task.planner.plan fetched.path task.seed) read with ⟨result, planned⟩
    rw [hplans] at hresult
    cases hresult
    exact ⟨⟨client, fetched, order, plan, found, read, planned, hnamed, hfinds, hreads, hplans⟩,
      rfl, rfl, rfl, rfl⟩

/-- **A task whose descriptor is in a file comes to know everything** as soon as there is a plan. -/
theorem exists_briefing_at {task : SyncTask} {place : Location} {content rest : List UInt8}
    {d : Descriptor} {fault : Url.Fault} {length : UInt64} {location digest text : String}
    {url : Url} {plan : Plan} (hlocation : task.location = location)
    (hnamed : Http.Client.named task.settings.client.userAgent = .ok client)
    (hpath : Url.read location = .error fault) (hname : location.isEmpty = false)
    (habsolute : Path.absolute w.disk.cwd.toPath location = location)
    (hobliging : w.disk.IsObliging) (hfile : w.disk.FileAt location place content)
    (hread : Descriptor.read content = .ok (d, rest)) (hlength : d.length = .ok length)
    (hdigest : d.digest = .ok digest) (htext : d.url = .ok text)
    (hurl : Descriptor.resolve (Url.ofFilePath location).toText text = .ok url)
    (hplan : ∀ read, read.programs = w.programs → read.isVerbose = w.isVerbose →
      (runOn (task.planner.plan location task.seed) read).1 = .ok plan) :
    ∃ b : Briefing task w, b.fetched.temporary = none ∧ b.plan = plan ∧
      b.order.length = length ∧ b.order.digest = digest ∧ b.order.url = url := by
  subst hlocation
  have hfinds : runOn (Fetched.ofLocation client task.location) w =
      (.ok ⟨task.location, .ofFilePath task.location, none⟩, w) := by
    have hlocal : runOn (Fetched.ofLocation client task.location) w = _ :=
      runOn_ofLocation hpath hname (habsolute.symm ▸ hfile)
    rwa [habsolute] at hlocal
  obtain ⟨order, log, horder, hlength', hdigest', hurl'⟩ :=
    Order.exists_ofDescriptor hlength hdigest htext hurl
  obtain ⟨b, hfetched, hb, hp, _⟩ := exists_briefing hnamed hfinds hobliging hfile hread horder
    fun read hreads => by
      obtain ⟨hprograms, hverbose⟩ := (ends_order_programs _ w).of_ok hreads
      exact hplan read hprograms hverbose
  refine ⟨b, by rw [hfetched], hp, ?_, ?_, ?_⟩
  · rw [hb, hlength']
  · rw [hb, hdigest']
  · rw [hb, hurl']

end SyncTask

end RangeSync
