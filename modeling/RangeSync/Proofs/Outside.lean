import RangeSync.Proofs.Reach

/-!
# Ranges that leave the seed

A plan is checked against the target before anything is opened, but not against the seed: how long
that is, nobody has asked. A range that leaves the seed is found out while it is copied, because
fewer bytes arrive than it should have. What is read matters for this, and it could change under
the copying if the output were written into the seed; `RangeSync.Bench.Draws` says why it does not.

So all that copying comes to is told by the seed alone. **It succeeds exactly if every range can be
read** (`RangeSync.ReuseRange.CanBeRead`), **and otherwise the first range that cannot be read is
what it fails for** (`RangeSync.Job.fails_at_first_outside`).

For which reason it fails is another matter. A range is moved to before it is read, and no file has
an offset that takes all 64 bits. A range that starts there is as far outside of the seed as any
other, even if it has no bytes, but what is reported is not the range: it is the system's refusal to
go there (`RangeSync.Job.far_source_is_not_named`).
-/

namespace RangeSync

open Act Disk

variable {b b' : Bench} {n : Nat} {file : Location} {source data : List UInt8} {r : ReuseRange}

/-- A file or folder that a range can be read from: its start is an offset that a file can have, and
all of its bytes are there. -/
structure ReuseRange.CanBeRead (r : ReuseRange) (source : List UInt8) : Prop where
  reach : r.source.toNat ≤ fileLimit
  isIn : r.IsIn source

/-! ### What is read while an output is written -/

namespace Bench

/-- **What is drawn from a place beside the output is always the same.** Either the output is
written elsewhere, or it is a row of zeros, onto which nothing but zeros can be copied then. -/
structure Draws (b : Bench) (n : Nat) (file : Location) (source : List UInt8) : Prop where
  canReach : b.CanReach n
  bytes : b.2.disk.bytesAt file = source
  blank : b.1.site = some file → source = List.replicate n 0

/-- Moving the position changes nothing. -/
theorem Draws.hasAt {position : Nat} (h : b.Draws n file source)
    (h' : HasAt b b.bytes position b') (hr : b'.CanReach n) : b'.Draws n file source := by
  refine ⟨hr, ?_, fun hsite => h.blank (h'.carries.site ▸ hsite)⟩
  by_cases hsite : b.1.site = some file
  · rw [← Writer.bytes_of_site (h'.carries.site.trans hsite), ← h.bytes,
      ← Writer.bytes_of_site hsite]
    exact h'.bytes
  · rw [h'.carries.bytesAt hsite, h.bytes]

/-- **Copying what is drawn does not change it.** -/
theorem Draws.wrote {position count : Nat} (h : b.Draws n file source)
    (hw : b.Wrote ((source.drop position).take count) b') (hr : b'.CanReach n)
    (hfit : b.1.position + ((source.drop position).take count).length ≤ n) :
    b'.Draws n file source := by
  refine ⟨hr, ?_, fun hsite => h.blank (hw.carries.site ▸ hsite)⟩
  by_cases hsite : b.1.site = some file
  · -- the output is a row of zeros, and so is what is written
    have hzeros : b.bytes = source := by rw [← h.bytes, Bench.bytes, Writer.bytes_of_site hsite]
    have hb := hw.bytes
    rw [hzeros, h.blank hsite, List.drop_replicate, List.take_replicate] at hb
    rw [h.blank hsite, List.drop_replicate, List.take_replicate, List.length_replicate] at hfit
    rw [overlay_zeros hfit] at hb
    rw [h.blank hsite, ← hb, Bench.bytes, Writer.bytes_of_site (hw.carries.site.trans hsite)]
  · rw [hw.carries.bytesAt hsite, h.bytes]

end Bench

/-- An output that has just been opened does not change what is drawn, wherever that is. -/
theorem Job.Opens.draws {job : Job} {w : World} (h : job.Opens w b)
    (hr : b.CanReach job.length.toNat) (file : Location) :
    b.Draws job.length.toNat file (b.2.disk.bytesAt file) := by
  refine ⟨hr, rfl, fun hsite => ?_⟩
  rw [← h.zeros, Bench.bytes, Writer.bytes_of_site hsite]

/-! ### Copying what is drawn -/

/-- **Copying writes what is there**, as much of it as was asked for. Only a folder cannot be copied
from. -/
theorem ends_copyBytes_of_draws (h : b.Draws n file source) (position left copied : Nat)
    (hfit : b.1.position + left ≤ n) :
    (copyBytes file position left copied).Ends b
      (fun count b' => count = copied + ((source.drop position).take left).length ∧
        b.Wrote ((source.drop position).take left) b' ∧ b.OnlyFiles b' ∧ b'.Draws n file source)
      fun _ _ => b.2.disk.tree.get? file = some .folder ∧ left ≠ 0 := by
  -- the induction is on what is left to copy; every portion that is read makes it smaller
  induction left using Nat.strongRecOn generalizing position copied b with
  | _ left ih =>
    unfold copyBytes
    split
    · rename_i hzero
      rw [hzero, List.take_zero]
      exact ⟨rfl, .nil (.refl b), .refl b, h⟩
    · rename_i hleft
      have hsome : min left copyPortion ≠ 0 := by
        have : 0 < copyPortion := by decide
        omega
      rw [ends_bind]
      refine (h.canReach.ends_readAt file position _).mono ?_ fun _ _ hfolder => ⟨hfolder, hleft⟩
      rintro bytes b₁ ⟨hbytes, h₁, hp₁, hr₁⟩
      have hd₁ := h.hasAt h₁ hr₁
      rw [h.bytes] at hbytes
      split
      · -- there is nothing more
        have hend : source.drop position = [] :=
          (List.take_eq_nil_iff.mp hbytes.symm).resolve_left hsome
        rw [hend, List.take_nil]
        exact ⟨rfl, .nil h₁, hp₁, hd₁⟩
      · rename_i c rest
        have hlen : (c :: rest).length = rest.length + 1 := List.length_cons
        have hcount : (c :: rest).length ≤ min left copyPortion := by
          rw [hbytes, List.length_take]
          omega
        have hfit₁ : b₁.1.position + (c :: rest).length ≤ n := by
          rw [h₁.position]
          omega
        rw [ends_bind]
        refine (hr₁.ends_write hfit₁).mono ?_ fun _ _ hno => hno.elim
        rintro _ b₂ ⟨h₂, hp₂, hr₂⟩
        have hwrote : b.Wrote (c :: rest) b₂ := (Bench.Wrote.nil h₁).append h₂
        have hposition := hwrote.position
        rw [hbytes] at h₂ hfit₁
        have hd₂ := hd₁.wrote h₂ hr₂ hfit₁
        have hnext : c :: rest ++ ((source.drop (position + (rest.length + 1))).take
            (left - (rest.length + 1))) = (source.drop position).take left := by
          rw [← List.drop_drop, ← hlen, hbytes]
          exact take_portion _ (Nat.min_le_left _ _)
        refine (ih (left - (rest.length + 1)) (by omega) hd₂ (position + (rest.length + 1)) _
          (by omega)).mono ?_ ?_
        · rintro count b₃ ⟨rfl, h₃, hp₃, hd₃⟩
          rw [← hnext]
          refine ⟨?_, hwrote.append h₃, hp₁.trans (hp₂.trans hp₃), hd₃⟩
          rw [List.length_append]
          omega
        · rintro _ _ ⟨hfolder, _⟩
          exact ⟨hwrote.carries.folder h.canReach.isOpen hfolder, hleft⟩

namespace Job

variable {job : Job}

/-- What is reported of a range that cannot be read. -/
def complaint (job : Job) (r : ReuseRange) : RebuildFault :=
  if fileLimit < r.source.toNat then .files .invalidInput else .plan (.readsOutside r job.seed)

/-- **A range is copied exactly if it can be read.** -/
theorem ends_copyRange_of_draws (job : Job) (h : b.Draws n file source)
    (htarget : r.destination.toNat + r.length.toNat ≤ n) :
    (job.copyRange file r).Ends b
      (fun count b' => (r.CanBeRead source ∧ count = r.length.toNat) ∧
        b.Laid [r.slice source] b' ∧ b.OnlyFiles b' ∧ b'.Draws n file source)
      fun cause _ => ¬ r.CanBeRead source ∧
        (b.2.disk.tree.get? file ≠ some .folder → cause = .failed (job.complaint r)) := by
  unfold copyRange complaint
  rw [ends_when]
  split
  · rename_i hfar
    exact ⟨fun hc => absurd hc.reach (Nat.not_le_of_lt hfar), fun _ => rfl⟩
  · rename_i hnear
    have hdestination : r.destination.toNat ≤ n := by omega
    rw [ends_pure, ends_bind]
    refine (h.canReach.ends_seekTo hdestination).mono ?_ fun _ _ hno => hno.elim
    rintro _ b₁ ⟨h₁, hp₁, hr₁⟩
    have hd₁ := h.hasAt h₁ hr₁
    rw [ends_bind]
    refine (ends_copyBytes_of_draws hd₁ r.source.toNat r.length.toNat 0
      (by rwa [h₁.position])).mono ?_ ?_
    · rintro count b₂ ⟨rfl, h₂, hp₂, hd₂⟩
      rw [Nat.zero_add]
      have hslice : ((source.drop r.source.toNat).take r.length.toNat).length = r.length.toNat ↔
          r.IsIn source := ReuseRange.length_slice_iff
      split
      · -- the seed has less than the range
        rename_i hshort
        exact ⟨fun hc => absurd (hslice.mpr hc.isIn) (Nat.ne_of_lt hshort), fun _ => rfl⟩
      · rename_i hfull
        have hlen : ((source.drop r.source.toNat).take r.length.toNat).length =
            r.length.toNat := by
          have := List.length_take_le r.length.toNat (source.drop r.source.toNat)
          omega
        exact ⟨⟨⟨Nat.not_lt.mp hnear, hslice.mp hlen⟩, hlen⟩, h₂.laid h₁, hp₁.trans hp₂, hd₂⟩
    · rintro cause _ ⟨hfolder, hlength⟩
      have hfolder := h₁.carries.folder h.canReach.isOpen hfolder
      refine ⟨fun hc => ?_, fun hfile => absurd hfolder hfile⟩
      -- a folder has no bytes
      have hnone : source = [] := by
        rw [← h.bytes, bytesAt, Tree.bytes?, hfolder]
        rfl
      have hin := hc.isIn (Nat.pos_of_ne_zero hlength)
      rw [hnone, List.length_nil] at hin
      omega

/-- **Ranges are copied one after the other as long as they can be read.** -/
theorem ends_copyRanges_of_draws (job : Job) (h : b.Draws n file source) (total : UInt64)
    (ranges : List ReuseRange)
    (htarget : ∀ r ∈ ranges, r.destination.toNat + r.length.toNat ≤ n) :
    (job.copyRanges file total ranges).Ends b
      (fun count b' => (∀ r ∈ ranges, r.CanBeRead source) ∧
        count.toNat = total.toNat + sumOf (ranges.map (·.span.2)) ∧
        b.Laid (ranges.map (·.slice source)) b' ∧ b.OnlyFiles b' ∧ b'.Draws n file source)
      fun cause _ => UInt64.size ≤ total.toNat + sumOf (ranges.map (·.span.2)) ∨
        ∃ good r rest, ranges = good ++ r :: rest ∧ (∀ q ∈ good, q.CanBeRead source) ∧
          ¬ r.CanBeRead source ∧
          (b.2.disk.tree.get? file ≠ some .folder → cause = .failed (job.complaint r)) := by
  -- the output of one range is where the next one starts from, and the total counts along
  induction ranges generalizing b total with
  | nil => exact ⟨nofun, rfl, .nil (.refl b), .refl b, h⟩
  | cons r rest ih =>
    have hsum : sumOf ((r :: rest).map (·.span.2)) =
        r.length.toNat + sumOf (rest.map (·.span.2)) := rfl
    rw [hsum]
    unfold copyRanges
    rw [ends_bind]
    refine (job.ends_copyRange_of_draws h (htarget r List.mem_cons_self)).mono ?_ ?_
    · rintro count b₁ ⟨⟨hread, rfl⟩, h₁, hp₁, hd₁⟩
      rw [ends_bind, ends_orCrash]
      rcases hw : word? (total.toNat + r.length.toNat) with _ | next
      · have hlarge := word?_eq_none.mp hw
        exact Or.inl (by omega)
      · have hnext := toNat_word? hw
        refine (ih hd₁ next fun q hq => htarget q (List.mem_cons_of_mem _ hq)).mono ?_ ?_
        · rintro count b₂ ⟨hall, hcount, h₂, hp₂, hd₂⟩
          exact ⟨List.forall_mem_cons.mpr ⟨hread, hall⟩, by omega, h₁.append h₂, hp₁.trans hp₂,
            hd₂⟩
        · rintro cause b₂ (hlarge | ⟨good, q, after, rfl, hgood, hno, hcause⟩)
          · exact Or.inl (by omega)
          · refine Or.inr ⟨r :: good, q, after, rfl, List.forall_mem_cons.mpr ⟨hread, hgood⟩, hno,
              fun hfile => hcause fun hfolder => hfile ?_⟩
            exact h₁.carries.folder h.canReach.isOpen hfolder
    · rintro cause b₁ ⟨hno, hcause⟩
      exact Or.inr ⟨[], r, rest, rfl, nofun, hno, hcause⟩

/-- **Copying everything from what the path of the seed leads to**, be it a file or a folder. -/
theorem ends_copyReuse_of_draws (job : Job) (h : b.Draws n file source) {e : Node}
    (hseed : b.2.disk.tree.walk b.2.disk.cwd true job.seed = .ok (.taken file e))
    (htarget : ∀ r ∈ job.plan.reuse, r.destination.toNat + r.length.toNat ≤ n) :
    job.copyReuse.Ends b
      (fun total b' => (∀ r ∈ job.plan.reuse, r.CanBeRead source) ∧
        total.toNat = job.plan.reused ∧ b.Laid (job.plan.reuse.map (·.slice source)) b' ∧
        b.OnlyFiles b' ∧ b'.CanReach n)
      fun cause _ => UInt64.size ≤ job.plan.reused ∨
        ∃ good r rest, job.plan.reuse = good ++ r :: rest ∧ (∀ q ∈ good, q.CanBeRead source) ∧
          ¬ r.CanBeRead source ∧
          (b.2.disk.tree.get? file ≠ some .folder → cause = .failed (job.complaint r)) := by
  refine ends_copyReuse_cases (fun hnil => ?_) fun _ => ?_
  · rw [Plan.reused, hnil]
    exact ⟨List.forall_mem_nil _, rfl, .nil (.refl b), .refl b, h.canReach⟩
  · rw [Bench.ends_onWorld, Bench.ends_onDisk]
    refine (ends_openForReading b.2.disk job.seed).mono ?_ ?_
    · rintro place d ⟨hk, e', hw⟩
      cases hseed.symm.trans hw
      have h₁ := Bench.carries_of_disk b { b.2 with disk := d } hk rfl
      have hr₁ : Bench.CanReach (b.1, { b.2 with disk := d }) n := h.canReach.kept hk rfl
      have hd₁ := h.hasAt h₁ hr₁
      have hzero : (0 : UInt64).toNat = 0 := rfl
      refine (job.ends_copyRanges_of_draws hd₁ 0 job.plan.reuse htarget).mono ?_ ?_
      · rintro total b₂ ⟨hall, htotal, h₂, hp₂, hd₂⟩
        exact ⟨hall, htotal.trans (Nat.zero_add _), (Bench.Laid.nil h₁).append h₂, hp₂,
          hd₂.canReach⟩
      · rintro cause b₂ (hlarge | ⟨good, r, rest, hsplit, hgood, hno, hcause⟩)
        · exact Or.inl (by rwa [hzero, Nat.zero_add] at hlarge)
        · refine Or.inr ⟨good, r, rest, hsplit, hgood, hno, fun hfile => hcause fun hfolder => ?_⟩
          exact hfile (hk.tree ▸ hfolder)
    · rintro kind d ⟨_, hr | hmissing⟩
      · exact (h.canReach.obliging kind hr).elim
      · exact (not_taken_of_missing hmissing hseed).elim

/-- **Copying fails at the first range that leaves the seed.** For a plan that passes its check, and
whose lengths have a sum, everything is copied exactly if every range can be read; otherwise the run
fails for the first range that cannot. It is named, unless it starts where no file has an offset. -/
theorem fails_at_first_outside (job : Job) {seed : List UInt8}
    (h : b.Draws job.length.toNat file seed) (hseed : b.2.disk.FileAt job.seed file seed)
    (hcheck : job.plan.check job.length = .ok ()) (hsum : job.plan.reused < UInt64.size) :
    job.copyReuse.Ends b
      (fun total _ => (∀ r ∈ job.plan.reuse, r.CanBeRead seed) ∧
        total.toNat = job.plan.reused)
      fun cause _ => ∃ good r rest, job.plan.reuse = good ++ r :: rest ∧
        (∀ q ∈ good, q.CanBeRead seed) ∧ ¬ r.CanBeRead seed ∧
        cause = .failed (if fileLimit < r.source.toNat then .files .invalidInput
          else .plan (.readsOutside r job.seed)) := by
  have hfile : b.2.disk.tree.get? file ≠ some .folder := by
    obtain ⟨mode, time, hget⟩ := hseed.get?
    rw [hget]
    exact nofun
  obtain ⟨mode, time, hw⟩ := hseed
  refine (job.ends_copyReuse_of_draws h hw (Plan.isFor_of_check hcheck).reuse).mono ?_ ?_
  · rintro total b' ⟨hall, htotal, _⟩
    exact ⟨hall, htotal⟩
  · rintro cause b' (hlarge | ⟨good, r, rest, hsplit, hgood, hno, hcause⟩)
    · exact absurd hsum (Nat.not_lt.mpr hlarge)
    · exact ⟨good, r, rest, hsplit, hgood, hno, hcause hfile⟩

end Job

/-- A world with a seed of three bytes. -/
def World.withSeed : World where
  disk := .ofTree [] ⟨[(["seed"], .file [97, 98, 99] defaultMode none)]⟩
  net := ⟨.unreachable, []⟩
  programs := ⟨fun _ _ => .error .notFound, []⟩
  progress := none
  log := []
  isVerbose := false

theorem World.fileAt_withSeed : withSeed.disk.FileAt "seed" ["seed"] [97, 98, 99] :=
  fileAt_of_name (by decide) (by decide) (by decide) rfl

namespace Job

/-- A job for a target of so many bytes that only copies, in the place of the seed. -/
def copying (length : UInt64) (reuse : List ReuseRange) : Job where
  length := length
  seed := "seed"
  url := ⟨"http", true, "", none, some (.ipv6 [0, 0, 0, 0, 0, 0, 0, 1]), none, "/", none, none⟩
  plan := ⟨none, reuse, []⟩
  destination := .replaceSeed
  settings := Settings.default.reconstruction
  client := .ok ⟨productName⟩
  expected := none
  mtime := none

/-- The output of such a job is opened, and the seed is still there. -/
theorem exists_opened_copying {length : UInt64} (reuse : List ReuseRange)
    (hlength : length.toNat ≤ fileLimit) :
    ∃ b, (copying length reuse).Opens .withSeed b ∧
      b.Draws length.toNat ["seed"] [97, 98, 99] ∧
      b.2.disk.FileAt "seed" ["seed"] [97, 98, 99] := by
  have hobliging : World.withSeed.disk.IsObliging := isObliging_ofTree _ _
  have hends := (copying length reuse).ends_opening_of_canOpen hobliging ⟨hlength, nofun⟩
  obtain ⟨writer, w', hrun, hopens⟩ := hends.exists_ok
  have hr := ((copying length reuse).ends_opening_canReach hobliging).of_ok hrun
  obtain ⟨hfile, _⟩ := hopens.seed World.fileAt_withSeed (isApartFrom_of_replaceSeed rfl _ _)
  have hdraws := hopens.draws hr.2 ["seed"]
  rw [hfile.bytesAt] at hdraws
  exact ⟨(writer, w'), hopens, hdraws, hfile⟩

/-- The second range has one byte more than the seed, and it is named. -/
theorem fails_at_first_outside_short :
    ∃ b b', (copying 4 [⟨0, 0, 2⟩, ⟨2, 2, 2⟩, ⟨0, 9, 1⟩]).Opens .withSeed b ∧
      runOn (copying 4 [⟨0, 0, 2⟩, ⟨2, 2, 2⟩, ⟨0, 9, 1⟩]).copyReuse b =
        (.error (.failed (.plan (.readsOutside ⟨2, 2, 2⟩ "seed"))), b') := by
  obtain ⟨b, hopens, hdraws, hfile⟩ :=
    @exists_opened_copying 4 [⟨0, 0, 2⟩, ⟨2, 2, 2⟩, ⟨0, 9, 1⟩] (by decide)
  have hfirst : (⟨0, 0, 2⟩ : ReuseRange).CanBeRead [97, 98, 99] := ⟨by decide, fun _ => by decide⟩
  have hsecond : ¬ (⟨2, 2, 2⟩ : ReuseRange).CanBeRead [97, 98, 99] := fun hc =>
    absurd (hc.isIn (by decide)) (by decide)
  have hends := fails_at_first_outside (copying 4 [⟨0, 0, 2⟩, ⟨2, 2, 2⟩, ⟨0, 9, 1⟩]) hdraws hfile
    rfl (by decide)
  obtain ⟨cause, b', hrun, good, r, rest, hsplit, hgood, hno, rfl⟩ := (hends.mono
    (fun _ _ h => hsecond (h.1 ⟨2, 2, 2⟩ (by simp [copying]))) fun _ _ h => h).exists_error
  refine ⟨b, b', hopens, hrun.trans ?_⟩
  -- the range that is named is not the first one, and none behind the second one
  rcases good with _ | ⟨q, _ | ⟨q', good⟩⟩
  · cases hsplit
    exact absurd hfirst hno
  · cases hsplit
    rfl
  · obtain rfl : ⟨2, 2, 2⟩ = q' := (List.cons.inj (List.cons.inj hsplit).2).1
    exact absurd (hgood ⟨2, 2, 2⟩ (by simp)) hsecond

/-- **A range that starts where no file has an offset is not named**: what is reported is that the
offset was refused. -/
theorem far_source_is_not_named :
    (copying 1 [⟨0, 0x8000000000000000, 1⟩]).plan.check 1 = .ok () ∧
      ∃ b b', (copying 1 [⟨0, 0x8000000000000000, 1⟩]).Opens .withSeed b ∧
        b.2.disk.FileAt "seed" ["seed"] [97, 98, 99] ∧
        runOn (copying 1 [⟨0, 0x8000000000000000, 1⟩]).copyReuse b =
          (.error (.failed (.files .invalidInput)), b') := by
  obtain ⟨b, hopens, hdraws, hfile⟩ :=
    @exists_opened_copying 1 [⟨0, 0x8000000000000000, 1⟩] (by decide)
  obtain ⟨mode, time, hw⟩ := hfile
  have hread : ¬ (⟨0, 0x8000000000000000, 1⟩ : ReuseRange).CanBeRead [97, 98, 99] := fun hc =>
    absurd hc.reach (by decide)
  have hends := ends_copyReuse_of_draws (copying 1 [⟨0, 0x8000000000000000, 1⟩]) hdraws hw
    (by simp [copying])
  obtain ⟨cause, b', hrun, hcause⟩ := (hends.mono
    (fun _ _ h => hread (h.1 _ List.mem_cons_self)) fun _ _ h => h).exists_error
  refine ⟨rfl, b, b', hopens, ⟨mode, time, hw⟩, hrun.trans ?_⟩
  obtain ⟨good, r, rest, hsplit, _, _, hcause⟩ := hcause.resolve_left (by decide)
  rcases good with _ | ⟨q, good⟩
  · cases hsplit
    have hget : b.2.disk.tree.get? ["seed"] = _ := Tree.get?_of_walk hw trivial
    rw [hcause (by rw [hget]; exact nofun)]
    rfl
  · simp [copying] at hsplit

end Job
end RangeSync
