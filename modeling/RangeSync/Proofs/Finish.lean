import RangeSync.Proofs.Fill

/-!
# Finishing an output

The second half of a run compares the digest of the output, if one is expected, puts the output into
its place, and dates it. What can be left behind depends on where the output is written.

* **A staged output is finished or it leaves no trace** (`RangeSync.Job.ends_finish_of_staged`) –
  with one exception, which is meant: under the advisory policy an output with another digest than
  the expected one is put into its place all the same, and the run fails then.
* An output of its own is in its place already, so a step that fails leaves it there, complete
  (`RangeSync.Job.ends_finish_of_site`). It is removed only if the digest is another one, under the
  strict policy.
-/

namespace RangeSync

open Act Disk

namespace Tree

variable {t t' : Tree} {cwd place : Location} {path : String} {bytes content : List UInt8}
  {mode : Nat} {time : Option Time.Instant}

/-- What a path leads to that was supplanted: the new file. -/
theorem Supplanted.walk {s : Spot} (h : Supplanted t cwd path bytes t')
    (hw : t'.walk cwd true path = .ok s) :
    ∃ mode time, s = .taken s.place (.file bytes mode time) ∧
      ∃ s', t.walk cwd false path = .ok s' ∧ s'.place = s.place := by
  obtain ⟨s', mode, time, hw', hs', hoff, hfile, _⟩ := h
  by_cases hr : Retraces t cwd path
  · rw [walk_retraced hw' hs' hr hoff hfile] at hw
    cases hw
  · rw [walk_replaced hw' hs' hr hoff hfile] at hw
    cases hw
    exact ⟨mode, time, rfl, s', hw', rfl⟩

/-- **A path that is supplanted and does not retrace its end leads to the new file.** -/
theorem Supplanted.walk_of_not_retraces (h : Supplanted t cwd path bytes t')
    (hr : ¬ Retraces t cwd path) :
    ∃ place mode time, t'.walk cwd true path = .ok (.taken place (.file bytes mode time)) := by
  obtain ⟨s, mode, time, hw, hs, hoff, hfile, _⟩ := h
  exact ⟨s.place, mode, time, walk_replaced hw hs hr hoff hfile⟩

/-- A path that is supplanted and retraces its end is broken. -/
theorem Supplanted.walk_of_retraces (h : Supplanted t cwd path bytes t')
    (hr : Retraces t cwd path) : t'.walk cwd true path = .error .notADirectory := by
  obtain ⟨s, mode, time, hw, hs, hoff, hfile, _⟩ := h
  exact walk_retraced hw hs hr hoff hfile

/-- A new file may be dated. -/
theorem Supplanted.put (h : Supplanted t cwd path bytes t')
    (hw : t'.walk cwd true path = .ok (.taken place (.file content mode time)))
    (time' : Option Time.Instant) :
    Supplanted t cwd path bytes (t'.put place (.file content mode time')) := by
  obtain ⟨_, _, hnew, s', hw', hplace⟩ := h.walk hw
  obtain ⟨s, mode₁, time₁, hs, hopen, hoff, hfile, hmode⟩ := h
  obtain rfl := Except.ok.inj (hs.symm.trans hw')
  change s.place = place at hplace
  have hget : t'.get? place = some (.file content mode time) := get?_of_walk hw trivial
  rw [hplace] at hoff hfile
  obtain ⟨rfl, rfl, -⟩ := Node.file.inj (Option.some.inj (hget.symm.trans hfile))
  refine ⟨s, mode, time', hs, hopen, ?_, ?_, hmode⟩
  · rw [hplace]
    exact hoff.trans (sameOff_put _ _ _)
  · rw [hplace]
    exact get?_put_self _ _ (ne_nil_of_file hget)

end Tree

namespace Writer

variable {d d₁ d₂ : Disk} {path : String} {bytes : List UInt8}

/-- A commit may be dated. -/
theorem Commits.ends_setModified (h : Commits d path bytes d₁) (time : Time.Instant) :
    (setModified path time).Ends d₁ (fun _ d₂ => Commits d path bytes d₂)
      fun _ d₂ => Commits d path bytes d₂ := by
  refine (Disk.ends_setModified d₁ path time).mono ?_ ?_
  · rintro _ d₂ ⟨place, content, mode, old, hw, ht⟩
    rw [h.2.cwd] at hw
    have hsup := h.1.put hw (some time)
    rw [← ht.tree] at hsup
    exact ⟨hsup, h.2.trans (ht.along (Or.inr (ht.tree ▸ hsup)))⟩
  · intro _ d₂ hk
    exact h.kept hk

end Writer

namespace Bench

variable {b : Bench}

theorem ends_digest (b : Bench) :
    (onWriter Writer.digest).Ends b
      (fun hex b' => hex = Digest.sha1Hex b.bytes ∧ ∃ position, HasAt b b.bytes position b')
      fun cause b' => (∃ position, HasAt b b.bytes position b') ∧
        ∃ kind, cause = .failed (.files kind) ∧ b.2.disk.Refuses kind := by
  rw [ends_onWriter]
  refine (Writer.ends_digest b.1 b.2.disk).mono ?_ ?_
  · rintro hex s ⟨hhex, h⟩
    exact ⟨hhex, _, hasAt_of_writer h⟩
  · rintro kind s ⟨⟨position, h⟩, hr⟩
    exact ⟨⟨position, hasAt_of_writer h⟩, kind, rfl, hr⟩

/-- Working on a staged output leaves the tree as it is. -/
theorem HasAt.spares {b' : Bench} {bytes : List UInt8} {position : Nat} (hsite : b.1.site = none)
    (h : HasAt b bytes position b') : Writer.Spares b.2.disk b'.2.disk := by
  have hdisk := h.carries.writer.disk
  rw [hsite] at hdisk
  exact Writer.spares_of_edits hdisk

theorem ends_digest_of_site {place : Location} (hsite : b.1.site = some place) :
    (onWriter Writer.digest).Ends b (fun _ _ => True)
      fun cause b' => ∀ kind, cause = .failed (.files kind) → b'.2.disk.Halted kind := by
  rw [ends_onWriter]
  refine (Writer.ends_digest_of_site hsite b.2.disk).mono (fun _ _ _ => trivial) ?_
  rintro kind s hhalted _ hkind
  cases hkind
  exact hhalted

end Bench

namespace Job

variable {job : Job} {b : Bench}

/-- An operation whose failure counts for nothing. -/
theorem ends_attempt {message : String} {describe : IoKind → String} {act : FileAct Unit}
    {w : World} {next : Unit → World → Prop} {fail : Stop RebuildFault → World → Prop}
    (post : Disk → Prop) (h : act.Ends w.disk (fun _ d => post d) fun _ d => post d)
    (hnext : ∀ w', post w'.disk → w'.net = w.net → next () w') :
    (attempt message describe act).Ends w next fail := by
  unfold attempt
  rw [ends_bind, ends_get]
  dsimp only
  rcases hrun : runOn act w.disk with ⟨kind | _, d⟩
  · exact hnext _ (h.of_error hrun) rfl
  · exact hnext _ (h.of_ok hrun) rfl

/-- Nothing is in the way of finishing an output. -/
structure CanFinish (job : Job) (b : Bench) : Prop where
  obliging : b.2.disk.IsObliging
  supplant : b.1.site = none → Writer.CanSupplant b.2.disk b.1.path
  digest : ∀ expected, job.expected = some expected → Digest.sha1Hex b.bytes = expected

/-- The digest of the output is another one than the expected one, and the output is kept. -/
def Mismatches (job : Job) (b : Bench) (cause : Stop RebuildFault) : Prop :=
  ∃ expected, job.expected = some expected ∧ Digest.sha1Hex b.bytes ≠ expected ∧
    job.settings.integrityPolicy = .advisory ∧
    cause = .failed (.digest expected (Digest.sha1Hex b.bytes))

/-- The last steps: put the output into its place and date it. -/
def settle (job : Job) : BenchAct String := do
  let path ← Bench.onWriter Writer.commit
  match job.mtime, job.settings.preserveMtime with
  | some time, true =>
    Bench.onWorld (attempt "Failed to set modification time on output" IoKind.describe
      (Disk.setModified path time))
  | _, _ => pure ()
  pure path

theorem finish_of_none (h : job.expected = none) : job.finish = job.settle := by
  unfold finish
  rw [h]
  rfl

theorem finish_of_some {expected : String} (h : job.expected = some expected) :
    job.finish = job.compare expected >>= fun _ => job.settle := by
  unfold finish
  rw [h]
  rfl

/-! ### How an output is finished

Finishing is taken apart once, here. What is said of an output that has been read, rejected or put
into its place follows from a statement for each of these steps. -/

section

variable {fail : Stop RebuildFault → Bench → Prop}

/-- **An output with the wrong digest is removed or kept**, as the policy says, and the log tells of
it. Whether it can be removed changes nothing. -/
theorem ends_reject {post : Bench → Prop}
    (hstrict : job.settings.integrityPolicy = .strict →
      ∀ w', w'.disk = b.discarded.disk → w'.net = b.2.net → post (b.1, w'))
    (hadvisory : job.settings.integrityPolicy = .advisory →
      (Bench.onWriter Writer.commit).Ends b
        (fun _ b' => ∀ log, post (b'.1, { b'.2 with log })) fail) :
    job.reject.Ends b (fun _ b' => post b') fail := by
  unfold reject
  rw [ends_bind, ends_get]
  cases hpolicy : job.settings.integrityPolicy with
  | strict =>
    dsimp only
    rw [ends_bind, Bench.ends_onWorld, World.note, ends_modify, Bench.ends_onWorld]
    refine ends_attempt (fun d => d = b.discarded.disk) ?_ (hstrict hpolicy)
    exact (ends_self b.1.discard b.2.disk).mono (fun _ d hrun => (congrArg Prod.snd hrun).symm)
      fun _ d hrun => (congrArg Prod.snd hrun).symm
  | advisory =>
    dsimp only
    rw [ends_bind]
    refine (hadvisory hpolicy).mono ?_ fun _ _ h => h
    intro path b' hpost
    rw [Bench.ends_onWorld, World.note, ends_modify]
    exact hpost _

/-- **The digest of an output is compared** after the output was read. If it is another one, then
the output is rejected, and the step fails all the same. -/
theorem ends_compare {expected : String} (Read : Bench → Prop)
    (hread : (Bench.onWriter Writer.digest).Ends b
      (fun hex b₁ => hex = Digest.sha1Hex b.bytes ∧ Read b₁) fail)
    (hreject : ∀ b₁, Read b₁ → Digest.sha1Hex b.bytes ≠ expected →
      job.reject.Ends b₁
        (fun _ b₂ => fail (.failed (.digest expected (Digest.sha1Hex b.bytes))) b₂) fail) :
    (job.compare expected).Ends b
      (fun _ b₁ => Digest.sha1Hex b.bytes = expected ∧ Read b₁) fail := by
  unfold compare
  rw [ends_bind]
  refine hread.mono ?_ fun _ _ h => h
  rintro actual b₁ ⟨rfl, h₁⟩
  split
  · rename_i hne
    rw [ends_bind]
    exact hreject b₁ h₁ hne
  · rename_i heq
    exact ⟨Decidable.of_not_not heq, h₁⟩

/-- **An output is settled when it has been put into its place.** That it could not be dated counts
for nothing. -/
theorem ends_settle (kept : String → Disk → Prop)
    (hcommit : (Bench.onWriter Writer.commit).Ends b (fun path b' => kept path b'.2.disk) fail)
    (hdate : ∀ path d time, kept path d →
      (setModified path time).Ends d (fun _ d' => kept path d') fun _ d' => kept path d') :
    job.settle.Ends b (fun path b' => kept path b'.2.disk) fail := by
  unfold settle
  rw [ends_bind]
  refine hcommit.mono ?_ fun _ _ h => h
  intro path b' hkept
  split
  · rename_i time _ _
    rw [ends_bind, Bench.ends_onWorld]
    exact ends_attempt (kept path) (hdate path _ time hkept) fun _ hd _ => hd
  · exact hkept

/-- **An output is finished by settling it**, once its digest has been compared with the expected
one, if there is one. -/
theorem ends_finish (Ready : Bench → Prop) {post : String → Bench → Prop}
    (hnone : job.expected = none → Ready b)
    (hcompare : ∀ expected, job.expected = some expected →
      (job.compare expected).Ends b (fun _ b₁ => Ready b₁) fail)
    (hsettle : ∀ b₁, Ready b₁ → job.settle.Ends b₁ post fail) :
    job.finish.Ends b post fail := by
  rcases he : job.expected with _ | expected
  · rw [finish_of_none he]
    exact hsettle b (hnone he)
  · rw [finish_of_some he, ends_bind]
    exact (hcompare expected he).mono (fun _ b₁ h₁ => hsettle b₁ h₁) fun _ _ h => h

end

/-- The output has been read, and it has the digest that is expected. -/
structure HasRead (job : Job) (b b₁ : Bench) : Prop where
  hasAt : ∃ position, Bench.HasAt b b.bytes position b₁
  digest : ∀ expected, job.expected = some expected → Digest.sha1Hex b.bytes = expected

theorem HasRead.of_none (b : Bench) (he : job.expected = none) : job.HasRead b b := by
  refine ⟨⟨_, Bench.HasAt.refl b⟩, fun _ he' => ?_⟩
  cases he.symm.trans he'

theorem HasRead.of_some {b₁ : Bench} {expected : String} (he : job.expected = some expected)
    (h : Digest.sha1Hex b.bytes = expected ∧ ∃ position, Bench.HasAt b b.bytes position b₁) :
    job.HasRead b b₁ := by
  refine ⟨h.2, fun expected' he' => ?_⟩
  rw [he] at he'
  exact h.1.trans (Option.some.inj he')

/-! ### Staged outputs -/

/-- How a step with a staged output fails. -/
def FailsStaged (job : Job) (b : Bench) (cause : Stop RebuildFault) (b' : Bench) : Prop :=
  (Writer.Spares b.2.disk b'.2.disk ∧ ∃ fault, cause = .failed fault) ∨
    job.Mismatches b cause ∧ Writer.Commits b.2.disk b.1.path b.bytes b'.2.disk

/-- A commit of a staged output that has been read. -/
theorem ends_commit_of_staged {b₁ : Bench} {position : Nat} (hsite : b.1.site = none)
    (h : Bench.HasAt b b.bytes position b₁) :
    (Bench.onWriter Writer.commit).Ends b₁
      (fun path b' => path = b.1.path ∧ Writer.Commits b.2.disk b.1.path b.bytes b'.2.disk)
      fun cause b' => Writer.Spares b.2.disk b'.2.disk ∧ (∃ fault, cause = .failed fault) ∧
        (b.2.disk.IsObliging → ¬ Writer.CanSupplant b.2.disk b.1.path) := by
  have hspares := h.spares hsite
  have hpath : b₁.1.path = b.1.path := h.carries.writer.path
  have hbytes : b₁.1.bytes b₁.2.disk = b.bytes := h.bytes
  rw [Bench.ends_onWriter]
  refine (Writer.ends_commit_of_staged (h.carries.site.trans hsite) b₁.2.disk).mono ?_ ?_
  · rintro path s ⟨rfl, hc⟩
    rw [hpath, hbytes] at hc
    exact ⟨hpath, hspares.commits hc⟩
  · rintro kind s ⟨hs, hr⟩
    refine ⟨hspares.trans hs, ⟨_, rfl⟩, fun hobliging hcan => ?_⟩
    rcases hr with hr | hr
    · exact hobliging kind (refuses_congr h.carries.refuses hr)
    · rw [hpath] at hr
      exact hr (hcan.of_spares hspares)

/-- Comparing the digest of a staged output. -/
theorem ends_compare_of_staged (job : Job) (b : Bench) (hsite : b.1.site = none)
    {expected : String} (he : job.expected = some expected) :
    (job.compare expected).Ends b
      (fun _ b' => Digest.sha1Hex b.bytes = expected ∧
        ∃ position, Bench.HasAt b b.bytes position b')
      fun cause b' => job.FailsStaged b cause b' ∧ ¬ job.CanFinish b := by
  refine ends_compare _ ((Bench.ends_digest b).mono (fun _ _ h => h) ?_) ?_
  · rintro cause b₁ ⟨⟨position, h₁⟩, kind, rfl, hr⟩
    exact ⟨Or.inl ⟨h₁.spares hsite, _, rfl⟩, fun hc => hc.obliging kind hr⟩
  · rintro b₁ ⟨position, h₁⟩ hne
    have hno : ¬ job.CanFinish b := fun hc => hne (hc.digest expected he)
    refine ends_reject (fun _ w' hd _ => ?_) fun hpolicy => ?_
    · -- the output is forgotten
      rw [Bench.discarded, Writer.discard_of_staged (h₁.carries.site.trans hsite)] at hd
      exact ⟨Or.inl ⟨hd ▸ h₁.spares hsite, _, rfl⟩, hno⟩
    · -- the output is kept, and the run fails all the same
      refine (ends_commit_of_staged hsite h₁).mono ?_ ?_
      · rintro path b₂ ⟨_, hc⟩ _
        exact ⟨Or.inr ⟨⟨expected, he, hne, hpolicy, rfl⟩, hc⟩, hno⟩
      · rintro cause b₂ ⟨hs, hfault, _⟩
        exact ⟨Or.inl ⟨hs, hfault⟩, hno⟩

/-- Committing and dating a staged output whose digest was compared. -/
theorem ends_settle_of_staged (job : Job) {b₁ : Bench} {position : Nat} (hsite : b.1.site = none)
    (h : Bench.HasAt b b.bytes position b₁) :
    job.settle.Ends b₁
      (fun path b' => path = b.1.path ∧ Writer.Commits b.2.disk b.1.path b.bytes b'.2.disk)
      fun cause b' => job.FailsStaged b cause b' ∧ ¬ job.CanFinish b := by
  refine ends_settle
    (fun path d => path = b.1.path ∧ Writer.Commits b.2.disk b.1.path b.bytes d) ?_ ?_
  · refine (ends_commit_of_staged hsite h).mono (fun _ _ hc => hc) ?_
    rintro cause b₂ ⟨hs, hfault, hno⟩
    exact ⟨Or.inl ⟨hs, hfault⟩, fun hc => hno hc.obliging (hc.supplant hsite)⟩
  · rintro path d time ⟨rfl, hc⟩
    exact (hc.ends_setModified time).mono (fun _ _ hd => ⟨rfl, hd⟩) fun _ _ hd => ⟨rfl, hd⟩

/-- **A staged output is finished or it leaves no trace**, unless it is kept with another digest
than the expected one. -/
theorem ends_finish_of_staged (job : Job) (b : Bench) (hsite : b.1.site = none) :
    job.finish.Ends b
      (fun path b' => path = b.1.path ∧
        Writer.Commits b.2.disk b.1.path b.bytes b'.2.disk ∧
        ∀ expected, job.expected = some expected → Digest.sha1Hex b.bytes = expected)
      fun cause b' => job.FailsStaged b cause b' ∧ ¬ job.CanFinish b := by
  refine ends_finish (job.HasRead b) (.of_none b) (fun expected he => ?_) ?_
  · exact (job.ends_compare_of_staged b hsite he).mono (fun _ _ h => .of_some he h) fun _ _ h => h
  · rintro b₁ ⟨⟨position, h₁⟩, hdigest⟩
    refine (job.ends_settle_of_staged hsite h₁).mono ?_ fun _ _ h => h
    rintro path b' ⟨hpath, hc⟩
    exact ⟨hpath, hc, hdigest⟩

/-- **A staged output that is finished could be put into its place.** -/
theorem ends_finish_canSupplant (job : Job) (b : Bench) (hsite : b.1.site = none) :
    job.finish.Ends b (fun _ _ => Writer.CanSupplant b.2.disk b.1.path) fun _ _ => True := by
  refine ends_finish (job.HasRead b) (.of_none b) (fun expected he => ?_) ?_
  · exact (job.ends_compare_of_staged b hsite he).mono (fun _ _ h => .of_some he h)
      fun _ _ _ => trivial
  · rintro b₁ ⟨⟨position, h₁⟩, _⟩
    refine ends_settle (fun _ _ => Writer.CanSupplant b.2.disk b.1.path) ?_
      fun _ d _ hcan => ends_always _ d hcan
    rw [Bench.ends_onWriter]
    refine (Writer.ends_commit_supplants (h₁.carries.site.trans hsite) b₁.2.disk).mono ?_
      fun _ _ _ => trivial
    rintro path s ⟨_, hcan⟩
    rw [h₁.carries.writer.path] at hcan
    exact hcan.before_spares (h₁.spares hsite)

/-! ### Outputs of their own -/

/-- The output is written into the file that its path leads to. -/
def LeadsTo (b : Bench) (place : Location) : Prop :=
  b.1.site = some place ∧
    ∃ mode time, b.2.disk.tree.walk b.2.disk.cwd true b.1.path =
      .ok (.taken place (.file b.bytes mode time))

/-- How a step with an output of its own fails: it stays there with all its bytes, because an
operation was refused or because it is to be kept; or an output with the wrong digest was to be
removed. -/
def FailsDirect (job : Job) (b : Bench) (cause : Stop RebuildFault) (b' : Bench) : Prop :=
  (∃ position, Bench.HasAt b b.bytes position b') ∧
      ((∃ kind, cause = .failed (.files kind) ∧ b'.2.disk.Halted kind) ∨ job.Mismatches b cause) ∨
    job.settings.integrityPolicy = .strict ∧
      ∃ b₁ expected actual, Bench.Carries b b₁ ∧ b'.2.disk = b₁.discarded.disk ∧
        cause = .failed (.digest expected actual)

theorem ends_commit_of_site {place : Location} {b₁ : Bench} {position : Nat}
    (hsite : b.1.site = some place) (h : Bench.HasAt b b.bytes position b₁) :
    (Bench.onWriter Writer.commit).Ends b₁
      (fun path b' => path = b.1.path ∧ ∃ position, Bench.HasAt b b.bytes position b')
      fun cause b' => (∃ position, Bench.HasAt b b.bytes position b') ∧
        ∃ kind, cause = .failed (.files kind) ∧ b'.2.disk.Halted kind := by
  rw [Bench.ends_onWriter]
  have hstay (d : Disk) (hk : b₁.2.disk.Kept d) :
      Bench.HasAt b b.bytes b₁.1.position (b₁.1, { b₁.2 with disk := d }) := by
    refine h.carries.hasAt ?_
    rw [← h.bytes]
    exact Bench.carries_of_disk b₁ { b₁.2 with disk := d } hk rfl
  refine (Writer.ends_commit_of_site (h.carries.site.trans hsite) b₁.2.disk).mono ?_ ?_
  · rintro path s ⟨rfl, hw, hk⟩
    refine ⟨h.carries.writer.path, b₁.1.position, ?_⟩
    rw [hw]
    exact hstay s.2 hk
  · rintro kind s ⟨hw, hk, hr⟩
    rw [hw]
    exact ⟨⟨_, hstay s.2 hk⟩, kind, rfl, hr⟩

/-- Comparing the digest of an output of its own. -/
theorem ends_compare_of_site (job : Job) (b : Bench) {place : Location}
    (hsite : b.1.site = some place) {expected : String} (he : job.expected = some expected) :
    (job.compare expected).Ends b
      (fun _ b' => Digest.sha1Hex b.bytes = expected ∧
        ∃ position, Bench.HasAt b b.bytes position b')
      fun cause b' => job.FailsDirect b cause b' ∧ ¬ job.CanFinish b := by
  refine ends_compare _ (((Bench.ends_digest b).and (Bench.ends_digest_of_site hsite)).mono
    (fun _ _ h => h.1) ?_) ?_
  · rintro cause b₁ ⟨⟨h₁, kind, rfl, hr⟩, hhalted⟩
    exact ⟨Or.inl ⟨h₁, Or.inl ⟨kind, rfl, hhalted kind rfl⟩⟩, fun hc => hc.obliging kind hr⟩
  · rintro b₁ ⟨position, h₁⟩ hne
    have hno : ¬ job.CanFinish b := fun hc => hne (hc.digest expected he)
    refine ends_reject (fun hpolicy w' hd _ => ?_) fun hpolicy => ?_
    · -- the output is removed, unless the system refuses it
      exact ⟨Or.inr ⟨hpolicy, b₁, _, _, h₁.carries, hd, rfl⟩, hno⟩
    · -- the output is kept, and the run fails all the same
      refine (ends_commit_of_site hsite h₁).mono ?_ ?_
      · rintro path b₂ ⟨_, position', h₂⟩ log
        refine ⟨Or.inl ⟨⟨position', ?_⟩, Or.inr ⟨expected, he, hne, hpolicy, rfl⟩⟩, hno⟩
        refine h₂.carries.hasAt ?_
        rw [← h₂.bytes, ← h₂.position]
        exact Bench.carries_of_disk b₂ { b₂.2 with log } (Kept.refl _) rfl
      · rintro cause b₂ ⟨h₂, hr⟩
        exact ⟨Or.inl ⟨h₂, Or.inl hr⟩, hno⟩

/-- The path still leads to the file of the output when that has been worked on. -/
theorem LeadsTo.fileAt {place : Location} {b₁ : Bench} {position : Nat} (hl : LeadsTo b place)
    (h : Bench.HasAt b b.bytes position b₁) :
    b₁.2.disk.FileAt b.1.path place b.bytes := by
  obtain ⟨hsite, mode, time, hw⟩ := hl
  have hget := Tree.get?_of_walk hw trivial
  obtain ⟨content, time', hget'⟩ := h.carries.writer.tree.file place b.bytes mode time hsite hget
  have hbytes : content = b.bytes := by
    rw [← h.bytes, Bench.bytes, Writer.bytes_of_site (h.carries.site.trans hsite)]
    exact (bytesAt_eq hget').symm
  refine ⟨mode, time', ?_⟩
  rw [h.carries.writer.disk.cwd, ← hbytes]
  have hoff := h.carries.writer.tree
  rw [hsite] at hoff
  exact Tree.walk_refilled hw trivial hoff.sameOff hget'

/-- The output is where its path leads to, and nothing else has changed. -/
structure StaysAt (b : Bench) (place : Location) (d : Disk) : Prop where
  file : d.FileAt b.1.path place b.bytes
  along : Along (Tree.SameOff place b.2.disk.tree) b.2.disk d

/-- An output that has been worked on stays where it is. -/
theorem LeadsTo.staysAt {place : Location} {b₁ : Bench} {position : Nat} (hl : LeadsTo b place)
    (h : Bench.HasAt b b.bytes position b₁) : StaysAt b place b₁.2.disk := by
  refine ⟨hl.fileAt h, h.carries.writer.disk.mono fun t ht => ?_⟩
  rw [hl.1] at ht
  exact ht.sameOff

/-- The output may be dated. -/
theorem StaysAt.ends_setModified {place : Location} {d : Disk} (h : StaysAt b place d)
    (time : Time.Instant) :
    (setModified b.1.path time).Ends d (fun _ d' => StaysAt b place d')
      fun _ d' => StaysAt b place d' := by
  refine (Disk.ends_setModified d b.1.path time).mono ?_ ?_
  · rintro _ d' ⟨place', content, mode, old, hw, ht⟩
    obtain ⟨rfl, _, _, hnode⟩ := h.file.eq_of_walk hw
    cases hnode
    have hoff : Tree.SameOff place' d.tree d'.tree := by
      rw [ht.tree]
      exact Tree.sameOff_put _ _ _
    have hget : d'.tree.get? place' = some (.file b.bytes mode (some time)) := by
      rw [ht.tree]
      exact Tree.get?_put_self _ _ ((Tree.leads_of_walk hw).place_ne_nil trivial)
    refine ⟨⟨mode, some time, ?_⟩, h.along.trans (ht.along ?_)⟩
    · rw [ht.cwd]
      exact Tree.walk_refilled hw trivial hoff hget
    · rw [← ht.tree]
      exact (h.along.tree (Tree.SameOff.refl _ _)).trans hoff
  · intro _ d' hk
    refine ⟨?_, h.along.trans hk.along⟩
    rw [FileAt, hk.tree, hk.cwd]
    exact h.file

/-- Committing and dating an output of its own whose digest was compared. -/
theorem ends_settle_of_site (job : Job) {place : Location} {b₁ : Bench} {position : Nat}
    (hl : LeadsTo b place) (h : Bench.HasAt b b.bytes position b₁) :
    job.settle.Ends b₁ (fun path b' => path = b.1.path ∧ StaysAt b place b'.2.disk)
      fun cause b' => job.FailsDirect b cause b' ∧ ¬ job.CanFinish b := by
  refine ends_settle (fun path d => path = b.1.path ∧ StaysAt b place d) ?_ ?_
  · refine (ends_commit_of_site hl.1 h).mono ?_ ?_
    · rintro path b₂ ⟨rfl, position₂, h₂⟩
      exact ⟨rfl, hl.staysAt h₂⟩
    · rintro cause b₂ ⟨h₂, kind, rfl, hr⟩
      refine ⟨Or.inl ⟨h₂, Or.inl ⟨kind, rfl, hr⟩⟩, fun hc => ?_⟩
      obtain ⟨_, h₂⟩ := h₂
      exact hc.obliging kind (hr.refuses h₂.carries.refuses)
  · rintro path d time ⟨rfl, hstays⟩
    exact (hstays.ends_setModified time).mono (fun _ _ hd => ⟨rfl, hd⟩) fun _ _ hd => ⟨rfl, hd⟩

/-- **An output of its own is finished where it is**, or it stays there. -/
theorem ends_finish_of_site (job : Job) (b : Bench) {place : Location} (hl : LeadsTo b place) :
    job.finish.Ends b
      (fun path b' => path = b.1.path ∧ StaysAt b place b'.2.disk ∧
        ∀ expected, job.expected = some expected → Digest.sha1Hex b.bytes = expected)
      fun cause b' => job.FailsDirect b cause b' ∧ ¬ job.CanFinish b := by
  refine ends_finish (job.HasRead b) (.of_none b) (fun expected he => ?_) ?_
  · exact (job.ends_compare_of_site b hl.1 he).mono (fun _ _ h => .of_some he h) fun _ _ h => h
  · rintro b₁ ⟨⟨position, h₁⟩, hdigest⟩
    refine (job.ends_settle_of_site hl h₁).mono ?_ fun _ _ h => h
    rintro path b' ⟨hpath, hstays⟩
    exact ⟨hpath, hstays, hdigest⟩

end Job
end RangeSync
