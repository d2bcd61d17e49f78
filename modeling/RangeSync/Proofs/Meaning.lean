import RangeSync.Proofs.RoundTrip

/-!
# What a reconstruction means

A job is told a length, a seed and a plan, and a server has answers. Together they determine the
output, byte by byte: it starts as a row of zeros, the ranges of the plan are laid over it in order,
those of the seed first, and **every offset has the byte of the last range over it**, or zero if
there is none (`RangeSync.Job.IsMeaning`). Neither the size of the portions nor where the output is
kept matters, and ranges may overlap, be repeated or be empty.

A run that has filled its output has made it so. And if the disk does what it is told, a run gets
that far exactly if the seed has all ranges that are copied from it and every answer serves its
range (`RangeSync.Job.fills_exactly`).
-/

namespace RangeSync

open Act Disk

namespace Job

variable {job : Job} {w : World} {b : Bench} {place : Location} {seed bytes : List UInt8}
  {delivered : List Patch}

/-- **The bytes are what the job means**, with a seed and with what is delivered: there are as many
as the target has, and each of them is that of the last patch over it. -/
structure IsMeaning (job : Job) (seed : List UInt8) (delivered : List Patch)
    (bytes : List UInt8) : Prop where
  patched : bytes = patched (List.replicate job.length.toNat 0)
    (job.plan.reuse.map (·.slice seed) ++ delivered)
  length : bytes.length = job.length.toNat
  byte : ∀ i, i < job.length.toNat →
    bytes[i]? = some (byteOf (job.plan.reuse.map (·.slice seed) ++ delivered) i)

/-- **A filled output is what the job means.** -/
theorem Fills.isMeaning (h : job.Fills w b) (hseed : w.disk.FileAt job.seed place seed)
    (hapart : job.IsApartFrom w.disk place) :
    ∃ delivered, job.deliveries? w.net = some delivered ∧ job.IsMeaning seed delivered b.bytes := by
  obtain ⟨delivered, hdelivers, hbytes⟩ := h.exists_delivered hseed hapart
  refine ⟨delivered, hdelivers, hbytes, h.isFor.length_of_makes h.makes, fun i hi => ?_⟩
  rw [hbytes]
  exact getElem?_patched_zeros (fits_of_isIn h.isFor (h.source hseed hapart) hdelivers) hi

/-- **A run fills its output with what the job means**, before it compares and commits it; and it
gets there, if the disk does what it is told and the counting starts from zero, exactly if the seed
has all ranges that are copied from it and every answer serves its range. -/
theorem fills_exactly (job : Job) (w : World) (hlength : job.length.toNat ≤ fileLimit)
    (hcheck : job.plan.check job.length = .ok ()) (hreused : job.plan.reused < UInt64.size)
    (hdownloaded : job.plan.downloaded < UInt64.size)
    (hreach : ∀ r ∈ job.plan.reuse, r.source.toNat ≤ fileLimit)
    (hchunk : job.settings.downloadChunkSize.count.toNat < Origin.roomLimit)
    (hseed : w.disk.FileAt job.seed place seed) (hapart : job.IsApartFrom w.disk place) :
    job.run = job.fill >>= job.close ∧
      job.fill.Ends w
        (fun filled w' => ∃ delivered, job.deliveries? w.net = some delivered ∧
          job.IsMeaning seed delivered (Bench.bytes (filled.2.2, w')))
        (fun _ _ => True) ∧
      (w.disk.IsObliging → (∀ path, job.destination = .file path → w.disk.CanCreate path) →
        (∀ t, w.progress = some t → t.completed = 0) →
        ((∃ filled w', runOn job.fill w = (.ok filled, w')) ↔
          (∀ r ∈ job.plan.reuse, r.IsIn seed) ∧
            ∃ delivered, job.deliveries? w.net = some delivered)) := by
  refine ⟨job.run_eq, ?_, ?_⟩
  · refine (job.ends_fill w).mono ?_ fun _ _ _ => trivial
    rintro filled w' ⟨_, _, hfills⟩
    exact hfills.isMeaning hseed hapart
  · intro hobliging hcreate hfresh
    constructor
    · rintro ⟨filled, w', hrun⟩
      obtain ⟨_, _, hfills⟩ := (job.ends_fill w).of_ok hrun
      obtain ⟨delivered, hdelivers, _⟩ := hfills.isMeaning hseed hapart
      exact ⟨hfills.source hseed hapart, delivered, hdelivers⟩
    · rintro ⟨hsource, delivered, hdelivers⟩
      have hlengths : ∀ r ∈ job.plan.download, r.length? ≠ none := fun r hr =>
        DownloadRange.length_ne_none (Nat.lt_of_lt_of_le
          ((Plan.isFor_of_check hcheck).download r hr).2 hlength)
      have hcan : job.CanFill w place seed delivered :=
        ⟨hcheck, hobliging, ⟨hlength, hcreate⟩, fun _ => hseed, hapart, hsource, hreach, hreused,
          ⟨hlengths, hdownloaded, hchunk, hfresh⟩, hdelivers⟩
      rcases hrun : runOn job.fill w with ⟨cause | filled, w'⟩
      · exact absurd hcan (((job.ends_fill w).of_error hrun).2 place seed delivered)
      · exact ⟨filled, w', rfl⟩

/-- A job for five bytes. It copies the last byte of the seed, and nothing from far behind its end;
then it asks for two bytes, of which it gets just those, and for the third byte again and the first
one, for each of which it gets the whole file. The last two bytes are left out. -/
def gapped : Job where
  length := 5
  seed := "/seed"
  url := Descriptor.threeBytesUrl
  plan := ⟨none, [⟨0, 2, 1⟩, ⟨2, 50, 0⟩], [⟨1, 2⟩, ⟨2, 2⟩, ⟨0, 0⟩]⟩
  destination := .file "/cde"
  settings := Settings.default.reconstruction
  client := .ok ⟨productName⟩
  expected := none
  mtime := none

/-- What is left out is zero, and all else comes from the last range over it. The third byte is
found in the whole file behind the two that are passed over. -/
theorem fills_exactly_gapped :
    gapped.deliveries? World.withThreeBytes.net = some [(1, [100, 101]), (2, [101]), (0, [99])] ∧
      ∃ filled w', runOn gapped.fill .withThreeBytes = (.ok filled, w') ∧
        Bench.bytes (filled.2.2, w') = [99, 100, 101, 0, 0] := by
  have hdelivers : gapped.deliveries? World.withThreeBytes.net =
      some [(1, [100, 101]), (2, [101]), (0, [99])] := by decide +kernel
  have hobliging : World.withThreeBytes.disk.IsObliging := isObliging_ofTree _ _
  have hseed : World.withThreeBytes.disk.FileAt "/seed" ["seed"] [97, 98, 99] :=
    fileAt_of_name (by decide) (by decide) (by decide) rfl
  have hout : World.withThreeBytes.disk.tree.walk [] true "/cde" = .ok (.vacant [] "cde") :=
    Tree.walk_of_new_name (by decide) (by decide) (by decide) rfl
  have hapart : gapped.IsApartFrom World.withThreeBytes.disk ["seed"] := by
    intro path s hpath hw
    cases hpath
    cases hout.symm.trans hw
    decide
  obtain ⟨_, hmeaning, hreaches⟩ := fills_exactly gapped .withThreeBytes (by decide) rfl
    (by decide) (by decide) (by decide) (by decide) hseed hapart
  have hcreate : ∀ path, gapped.destination = .file path →
      World.withThreeBytes.disk.CanCreate path := by
    intro path hpath
    cases hpath
    exact ⟨by decide, _, hout, trivial⟩
  have hsource : ∀ r ∈ gapped.plan.reuse, r.IsIn [97, 98, 99] := by
    unfold ReuseRange.IsIn
    decide
  obtain ⟨filled, w', hrun⟩ := (hreaches hobliging hcreate nofun).mpr ⟨hsource, _, hdelivers⟩
  obtain ⟨delivered, hsame, hm⟩ := hmeaning.of_ok hrun
  cases hdelivers.symm.trans hsame
  refine ⟨hdelivers, filled, w', hrun, ?_⟩
  rw [hm.patched]
  decide

end Job
end RangeSync
