import RangeSync.Proofs.Leftover

/-!
# Sums that leave their 64 bits

A run of a job checks itself as it goes: sums of lengths have to stay in their 64 bits, no more
bytes may be counted than were announced, and in the end all of them have to be there. A check that
fails crashes the run. For a target that a file can hold, **only a sum of lengths can do that**
(`RangeSync.Job.crashes_only_by_sums`): every single range of a plan that passes its check has a
length, and the counting is right whatever the server answers.

The sums are another matter. The check of a plan looks at the ranges one by one, and ranges may
overlap, so their lengths can add up to any number. A plan with three ranges that each have all of a
very long target passes, and the run crashes before it asks for the first of them
(`RangeSync.Job.crashes_of_repeated_ranges`).
-/

namespace RangeSync

open Act Disk

namespace Job

variable {job : Job} {w : World} {b b' : Bench} {cause : Stop RebuildFault}

/-! ### Steps that do not crash -/

theorem Mismatches.exists_fault (h : job.Mismatches b cause) : ∃ fault, cause = .failed fault := by
  obtain ⟨_, _, _, _, rfl⟩ := h
  exact ⟨_, rfl⟩

/-- **Finishing an output does not crash**, wherever the output is. -/
theorem ends_finish_steady (hsite : b.1.site = none ∨ ∃ place, LeadsTo b place) :
    job.finish.Ends b (fun _ _ => True) fun cause _ => ∃ fault, cause = .failed fault := by
  rcases hsite with hnone | ⟨place, hl⟩
  · refine (job.ends_finish_of_staged b hnone).mono (fun _ _ _ => trivial) ?_
    rintro cause b' ⟨hfails, _⟩
    rcases hfails with ⟨_, hfault⟩ | ⟨hmismatch, _⟩
    · exact hfault
    · exact hmismatch.exists_fault
  · refine (job.ends_finish_of_site b hl).mono (fun _ _ _ => trivial) ?_
    rintro cause b' ⟨hfails, _⟩
    rcases hfails with ⟨_, ⟨_, rfl, _⟩ | hmismatch⟩ | ⟨_, _, _, _, _, _, rfl⟩
    · exact ⟨_, rfl⟩
    · exact hmismatch.exists_fault
    · exact ⟨_, rfl⟩

/-- A filled output can be finished where it is. -/
theorem Fills.site (h : job.Fills w b) : b.1.site = none ∨ ∃ place, LeadsTo b place := by
  obtain ⟨b₁, hopens, hcarries⟩ := h.opened
  rcases hdest : job.destination with path | _
  · obtain ⟨s, _, _, _, hl, _⟩ := hopens.leadsTo hdest hcarries
    exact Or.inr ⟨s.place, hl⟩
  · exact Or.inl (hopens.staged hdest hcarries).1

/-- **A run that crashes was not steady**, and it got as far as its downloads. -/
theorem ends_run_steady (job : Job) (w : World) :
    job.run.Ends w (fun _ _ => True) fun cause _ =>
      cause = .crashed → job.plan.IsFor job.length ∧ ¬ job.IsSteady w.progress := by
  rw [run_eq, ends_bind]
  refine (job.ends_fill w).mono ?_ ?_
  · rintro ⟨reused, downloaded, writer⟩ w₁ ⟨_, _, hfills⟩
    refine (ends_close (ends_finish_steady hfills.site)).mono (fun _ _ _ => trivial) ?_
    rintro cause w' ⟨_, fault, rfl⟩
    exact nofun
  · rintro cause w' ⟨haborts, _⟩ rfl
    cases haborts with
    | crashed _ _ hfor hno => exact ⟨hfor, hno⟩

/-! ### Sums -/

/-- The ranges of a plan for a target that a file can hold have lengths. -/
theorem length?_ne_none (hfor : job.plan.IsFor job.length)
    (hlength : job.length.toNat ≤ fileLimit) :
    ∀ r ∈ job.plan.download, r.length? ≠ none :=
  fun r hr => DownloadRange.length_ne_none (Nat.lt_of_lt_of_le (hfor.download r hr).2 hlength)

/-- **A run crashes only because of a sum.** If the target is one that a file can hold, a portion of
an answer has room, and nothing was counted before, then a run crashes only if the lengths of its
downloads leave their 64 bits; and copying from the seed crashes only if the lengths of its copies
do. -/
theorem crashes_only_by_sums (job : Job) (w : World) (hlength : job.length.toNat ≤ fileLimit)
    (hchunk : job.settings.downloadChunkSize.count.toNat < Origin.roomLimit)
    (hfresh : ∀ t, w.progress = some t → t.completed = 0) :
    job.run.Ends w (fun _ _ => True)
        (fun cause _ => cause = .crashed → UInt64.size ≤ job.plan.downloaded) ∧
      ∀ b : Bench, b.IsOpen → job.copyReuse.Ends b (fun _ _ => True)
        fun cause _ => cause = .crashed → UInt64.size ≤ job.plan.reused := by
  constructor
  · refine (job.ends_run_steady w).mono (fun _ _ _ => trivial) ?_
    intro cause w' hunsteady hcause
    obtain ⟨hfor, hno⟩ := hunsteady hcause
    refine Nat.le_of_not_lt fun hsum => hno ?_
    exact ⟨length?_ne_none hfor hlength, hsum, hchunk, hfresh⟩
  · intro b ho
    refine (job.ends_copyReuse b ho).mono (fun _ _ _ => trivial) ?_
    rintro cause b' ⟨_, _, _, hover⟩
    exact hover

/-- **Lengths that leave their 64 bits have no total.** -/
theorem downloadTotal?_eq_none {p : Plan} (h : UInt64.size ≤ p.downloaded) :
    p.downloadTotal? = none := by
  rcases htotal : p.downloadTotal? with _ | total
  · rfl
  · have hcount := toNat_downloadTotal? htotal
    have := total.toNat_lt_size
    omega

/-- **A run that gets to its downloads crashes** if their lengths leave their 64 bits; here, one
that copies nothing. -/
theorem ends_run_of_overflow (job : Job) (w : World) {client : Http.Client}
    (hcheck : job.plan.check job.length = .ok ()) (hclient : job.client = .ok client)
    (hobliging : w.disk.IsObliging) (hopen : job.CanOpen w.disk) (hreuse : job.plan.reuse = [])
    (hsum : UInt64.size ≤ job.plan.downloaded) :
    job.run.Ends w (fun _ _ => False) fun cause _ => cause = .crashed := by
  have hempty : ¬ job.plan.download.isEmpty = true := by
    intro hnil
    rw [Plan.downloaded, List.isEmpty_iff.mp hnil] at hsum
    exact absurd hsum (by decide)
  have horigin : job.origin? =
      .ok (some ⟨client, job.url, job.settings.downloadChunkSize.count⟩) := by
    rw [origin?, if_neg hempty, hclient]
    rfl
  have hcrash (b : Bench) : (job.downloadAll (some ⟨client, job.url,
      job.settings.downloadChunkSize.count⟩)).Ends b (fun _ _ => False)
        fun cause _ => cause = .crashed := by
    refine ends_downloadAll_cases (fun _ => rfl) fun announced htotal => ?_
    cases (downloadTotal?_eq_none hsum).symm.trans htotal
  rw [run_eq, ends_bind, ends_fill_iff hcheck horigin]
  refine (ends_opening_of_canOpen hobliging hopen).mono ?_ fun _ _ hno => hno.elim
  intro writer w₁ _
  rw [copyReuse_of_nil hreuse]
  have hnothing : (pure 0 : BenchAct UInt64).Ends (writer, w₁) (fun _ _ => True)
      fun _ _ => False := trivial
  refine (ends_shielded (ends_orAbandon hnothing)).mono ?_ ?_
  · rintro ⟨reused, writer₂⟩ w₂ _
    refine (ends_orAbandon (hcrash (writer₂, w₂))).mono (fun _ _ hno => hno.elim) ?_
    rintro cause w' ⟨_, hcause, _⟩
    exact hcause
  · rintro cause w' ⟨_, ⟨_, hno, _⟩, _⟩
    exact hno.elim

/-! ### Ranges that are repeated -/

/-- A job that downloads the first of two bytes twice, and then both, over a seed that it has copied
twice. -/
def repeating : Job where
  length := 2
  seed := "/seed"
  url := ⟨"http", true, "", none, some (.ipv6 [0, 0, 0, 0, 0, 0, 0, 1]), none, "/", none, none⟩
  plan := ⟨some 2, [⟨0, 0, 2⟩, ⟨0, 1, 2⟩], [⟨0, 0⟩, ⟨0, 0⟩, ⟨0, 1⟩]⟩
  destination := .replaceSeed
  settings := Settings.default.reconstruction
  client := .ok ⟨productName⟩
  expected := none
  mtime := none

/-- A world with a seed of three bytes, in which downloads are counted. -/
def counted : World :=
  { World.ofDisk (.ofTree [] ⟨[(["seed"], .file [97, 98, 99] defaultMode none)]⟩) with
    progress := some .verifying }

/-- Ranges may be repeated as long as their lengths have a sum: the run does not crash. -/
theorem crashes_only_by_sums_repeating :
    repeating.plan.downloaded = 4 ∧ repeating.plan.reused = 4 ∧
      repeating.run.Ends counted (fun _ _ => True) (fun cause _ => cause ≠ .crashed) ∧
      ∀ b : Bench, b.IsOpen → repeating.copyReuse.Ends b (fun _ _ => True)
        fun cause _ => cause ≠ .crashed := by
  have hfresh : ∀ t, counted.progress = some t → t.completed = 0 := by
    intro t ht
    cases ht
    rfl
  obtain ⟨hrun, hcopy⟩ := crashes_only_by_sums repeating counted (by decide) (by decide) hfresh
  refine ⟨rfl, rfl, hrun.mono (fun _ _ _ => trivial) ?_, fun b ho =>
    (hcopy b ho).mono (fun _ _ _ => trivial) ?_⟩
  · exact fun cause _ h hcause => absurd (h hcause) (by decide)
  · exact fun cause _ h hcause => absurd (h hcause) (by decide)

/-- A job for a target as long as a file can be, which downloads all of it three times. -/
def overflowing : Job :=
  { repeating with
    length := 9223372036854775807
    plan := ⟨none, [], [⟨0, 9223372036854775806⟩, ⟨0, 9223372036854775806⟩,
      ⟨0, 9223372036854775806⟩]⟩ }

/-- **A plan that passes its check can crash the run**: every range lies inside of the target, and
nothing is refused, but the lengths of the ranges leave their 64 bits. -/
theorem crashes_of_repeated_ranges :
    overflowing.length.toNat ≤ fileLimit ∧
      overflowing.plan.check overflowing.length = .ok () ∧
      overflowing.settings.downloadChunkSize.count.toNat < Origin.roomLimit ∧
      counted.disk.IsObliging ∧ (∀ t, counted.progress = some t → t.completed = 0) ∧
      ∃ w', runOn overflowing.run counted = (.error .crashed, w') := by
  have hcheck : overflowing.plan.check overflowing.length = .ok () := rfl
  have hobliging : counted.disk.IsObliging := isObliging_ofTree _ _
  have hopen : overflowing.CanOpen counted.disk := by
    refine ⟨by decide, fun path hpath => ?_⟩
    cases hpath
  refine ⟨by decide, hcheck, by decide, hobliging, fun t ht => by cases ht; rfl, ?_⟩
  obtain ⟨_, w', hrun, rfl⟩ := (ends_run_of_overflow overflowing counted hcheck rfl hobliging hopen
    rfl (by decide +kernel)).exists_error
  exact ⟨w', hrun⟩

end Job
end RangeSync
