import RangeSync.Proofs.Bench
import RangeSync.Rebuild.Job

/-!
# What copying from the seed does

A range of the seed is copied in portions, until it is complete or the seed ends. The statement
about the loop (`RangeSync.ends_copyBytes`) is about what is left to copy: it lays some data over
the output at its position, and if the output is not written into the seed itself, the data is what
the seed has there. Everything else follows by going through the ranges of the plan in order.

Copying fails for reasons of the disk or because a range leaves the seed, and it crashes only if the
number of copied bytes leaves its 64 bits. Even then, every byte that was copied is one of the seed,
at its place (`RangeSync.Disk.Begun`). `RangeSync.Job.CanCopyAll` collects what has to hold so that
nothing of this happens.
-/

namespace RangeSync

open Act Disk

variable {b b' : Bench} {file : Location}

/-! ### Portions -/

theorem Bench.ends_readAt (b : Bench) (file : Location) (position count : Nat) :
    (Bench.onWorld (World.onDisk (Disk.readAt file position count))).Ends b
      (fun bytes b' => Bench.HasAt b b.bytes b.1.position b' ∧ b.OnlyFiles b' ∧
        bytes = ((b.2.disk.bytesAt file).drop position).take count)
      fun cause b' => Bench.HasAt b b.bytes b.1.position b' ∧
        ∃ kind, cause = .failed (.files kind) ∧
          (b.2.disk.Refuses kind ∨ b.2.disk.tree.get? file = some .folder) := by
  rw [ends_onWorld, ends_onDisk]
  refine (Disk.ends_readAt b.2.disk file position count).mono ?_ ?_
  · rintro bytes d ⟨hk, rfl⟩
    exact ⟨carries_of_disk b { b.2 with disk := d } hk rfl, rfl, rfl⟩
  · rintro kind d ⟨hk, hr⟩
    exact ⟨carries_of_disk b { b.2 with disk := d } hk rfl, kind, rfl, hr⟩

/-- A folder that an open output does not make. -/
theorem Bench.Carries.folder (h : Bench.Carries b b') (ho : b.IsOpen)
    (hf : b'.2.disk.tree.get? file = some .folder) : b.2.disk.tree.get? file = some .folder := by
  by_cases hs : b.1.site = some file
  · obtain ⟨content, mode, time, hc⟩ := (h.isOpen ho) file (h.site.trans hs)
    rw [hc] at hf
    cases hf
  · rwa [h.get? hs] at hf

/-- A portion and what is taken after it make up what is taken. -/
theorem take_portion (l : List UInt8) {count left : Nat} (h : count ≤ left) :
    l.take count ++ (l.drop (l.take count).length).take (left - (l.take count).length) =
      l.take left := by
  rw [List.length_take]
  by_cases hl : l.length ≤ count
  · rw [Nat.min_eq_right hl, List.drop_length, List.take_nil, List.append_nil,
      List.take_of_length_le hl, List.take_of_length_le (by omega)]
  · rw [Nat.min_eq_left (by omega), ← List.take_add]
    congr 1
    omega

/-- **Copying lays data over the output**, at most as much as was asked for: all that the seed has,
if the output is not written into the seed. If it breaks off, it has laid a beginning of that. -/
theorem ends_copyBytes (b : Bench) (ho : b.IsOpen) (file : Location)
    (position left copied : Nat) :
    (copyBytes file position left copied).Ends b
      (fun n b' => ∃ data, n = copied + data.length ∧ data.length ≤ left ∧
        b.Wrote data b' ∧ b.OnlyFiles b' ∧
        (b.1.site ≠ some file → data = ((b.2.disk.bytesAt file).drop position).take left))
      fun cause b' => (∃ data, b.Wrote data b' ∧
        (b.1.site ≠ some file → data <+: ((b.2.disk.bytesAt file).drop position).take left)) ∧
        ∃ kind, cause = .failed (.files kind) ∧
          (b.2.disk.Refuses kind ∨ b.2.disk.tree.get? file = some .folder ∨
            fileLimit < b.1.position + left) := by
  -- the induction is on what is left to copy; every portion that is read makes it smaller
  induction left using Nat.strongRecOn generalizing position copied b with
  | _ left ih =>
    unfold copyBytes
    split
    · rename_i hzero
      refine ⟨[], rfl, Nat.zero_le _, .nil (.refl b), .refl b, fun _ => ?_⟩
      rw [hzero, List.take_zero]
    · rename_i hleft
      rw [ends_bind]
      refine (Bench.ends_readAt b file position _).mono ?_ ?_
      · rintro bytes b₁ ⟨h₁, hp₁, hbytes⟩
        have ho₁ := h₁.carries.isOpen ho
        split
        · -- the seed has nothing more
          refine ⟨[], rfl, Nat.zero_le _, .nil h₁, hp₁, fun _ => ?_⟩
          have hend : (b.2.disk.bytesAt file).drop position = [] := by
            have hmin : min left copyPortion ≠ 0 := by
              have : 0 < copyPortion := by decide
              omega
            exact (List.take_eq_nil_iff.mp hbytes.symm).resolve_left hmin
          rw [hend, List.take_nil]
        · rename_i c rest
          rw [ends_bind]
          refine (Bench.ends_write ho₁ (c :: rest)).mono ?_ ?_
          · rintro _ b₂ ⟨h₂, hp₂⟩
            have hlen : (c :: rest).length = rest.length + 1 := List.length_cons
            have hcount : (c :: rest).length ≤ min left copyPortion := by
              rw [hbytes, List.length_take]
              omega
            have hwrote : b.Wrote (c :: rest) b₂ := (Bench.Wrote.nil h₁).append h₂
            have hc := hwrote.carries
            -- writing to the output does not change what the seed has next
            have hnext (hs : b.1.site ≠ some file) : c :: rest ++
                ((b₂.2.disk.bytesAt file).drop (position + (rest.length + 1))).take
                  (left - (rest.length + 1)) =
                ((b.2.disk.bytesAt file).drop position).take left := by
              rw [hc.bytesAt hs, ← List.drop_drop, ← hlen, hbytes]
              exact take_portion _ (Nat.min_le_left _ _)
            refine (ih (left - (rest.length + 1)) (by omega) b₂ (hc.isOpen ho) _ _).mono ?_ ?_
            · rintro n b₃ ⟨data, rfl, hle, h₃, hp₃, hdata⟩
              refine ⟨c :: rest ++ data, ?_, ?_, ?_, ?_, ?_⟩
              · rw [List.length_append]
                omega
              · rw [List.length_append]
                omega
              · exact hwrote.append h₃
              · exact hp₁.trans (hp₂.trans hp₃)
              · intro hs
                rw [hdata (by rwa [hc.site]), hnext hs]
            · rintro cause b₃ ⟨⟨data, h₃, hdata⟩, kind, rfl, hr⟩
              refine ⟨⟨c :: rest ++ data, hwrote.append h₃, fun hs => ?_⟩, kind, rfl, ?_⟩
              · rw [← hnext hs, List.prefix_append_right_inj]
                exact hdata (by rwa [hc.site])
              rw [hwrote.position, hlen] at hr
              refine hr.imp (refuses_congr hc.refuses) (Or.imp (hc.folder ho) fun hlt => ?_)
              omega
          · rintro cause b₂ ⟨h₂, kind, rfl, hr⟩
            have hnothing : b.Wrote [] b₂ := (Bench.Wrote.nil h₁).append (.nil h₂)
            refine ⟨⟨[], hnothing, fun _ => List.nil_prefix⟩, kind, rfl, ?_⟩
            rw [h₁.position] at hr
            exact hr.imp (refuses_congr h₁.carries.refuses) fun hlt => Or.inr (by omega)
      · rintro cause b₁ ⟨h₁, kind, rfl, hr⟩
        exact ⟨⟨[], .nil h₁, fun _ => List.nil_prefix⟩, kind, rfl, hr.imp_right Or.inl⟩

/-! ### Ranges -/

/-- Nothing is in the way of copying a range of an open file to the output. A range without bytes
may be anywhere in reach. -/
structure CanCopy (b : Bench) (file : Location) (r : ReuseRange) : Prop where
  obliging : b.2.disk.IsObliging
  apart : b.1.site ≠ some file
  isFile : b.2.disk.tree.get? file ≠ some .folder
  source : r.IsIn (b.2.disk.bytesAt file)
  reach : r.source.toNat ≤ fileLimit
  target : r.destination.toNat + r.length.toNat ≤ fileLimit

theorem CanCopy.carries {r : ReuseRange} (hc : CanCopy b file r) (ho : b.IsOpen)
    (h : Bench.Carries b b') : CanCopy b' file r :=
  ⟨hc.obliging.congr h.refuses, h.site ▸ hc.apart, fun hf => hc.isFile (h.folder ho hf),
    h.bytesAt hc.apart ▸ hc.source, hc.reach, hc.target⟩

namespace Job

variable {job : Job}

/-- **A range is copied as a whole** or the run fails, and then the beginning of it was copied. -/
theorem ends_copyRange (job : Job) (b : Bench) (ho : b.IsOpen) (file : Location)
    (r : ReuseRange) :
    (job.copyRange file r).Ends b
      (fun n b' => ∃ patch : Patch, patch.span = r.span ∧ n = r.length.toNat ∧
        b.Laid [patch] b' ∧ b.OnlyFiles b' ∧
        (b.1.site ≠ some file → patch = r.slice (b.2.disk.bytesAt file)))
      fun cause b' => (∃ patch, b.Laid [patch] b' ∧
        (b.1.site ≠ some file → patch.StartsAs (r.slice (b.2.disk.bytesAt file)))) ∧
        (∃ fault, cause = .failed fault) ∧ ¬ CanCopy b file r := by
  -- nothing of the range has been copied so far
  have hnothing {position : Nat} {b' : Bench} (h : Bench.HasAt b b.bytes position b') :
      ∃ patch, b.Laid [patch] b' ∧
        (b.1.site ≠ some file → patch.StartsAs (r.slice (b.2.disk.bytesAt file))) :=
    ⟨(r.destination.toNat, []), ⟨position, h⟩, fun _ => ⟨rfl, List.nil_prefix⟩⟩
  unfold copyRange
  rw [ends_when]
  split
  · rename_i hfar
    exact ⟨hnothing (Bench.HasAt.refl b), ⟨_, rfl⟩, fun hc => absurd hc.reach (by omega)⟩
  · rw [ends_pure, ends_bind]
    refine (Bench.ends_seekTo b r.destination.toNat).mono ?_ ?_
    · rintro _ b₁ ⟨h₁, hp₁⟩
      rw [ends_bind]
      refine (ends_copyBytes b₁ (h₁.carries.isOpen ho) file _ _ 0).mono ?_ ?_
      · rintro n b₂ ⟨data, rfl, hle, h₂, hp₂, hdata⟩
        rw [Nat.zero_add]
        have hslice (hs : b.1.site ≠ some file) : data =
            ((b.2.disk.bytesAt file).drop r.source.toNat).take r.length.toNat := by
          rw [hdata (by rwa [h₁.carries.site]), h₁.carries.bytesAt hs]
        split
        · -- the seed has less than the range
          rename_i hshort
          refine ⟨⟨_, h₂.laid h₁, fun hs => ⟨rfl, by rw [hslice hs]; exact List.prefix_refl _⟩⟩,
            ⟨_, rfl⟩, fun hc => ?_⟩
          rw [hslice hc.apart, List.length_take, List.length_drop] at hshort
          have := hc.source (by omega)
          omega
        · rename_i hfull
          have hlen : data.length = r.length.toNat := by omega
          refine ⟨_, ?_, hlen, h₂.laid h₁, hp₁.trans hp₂, fun hs => ?_⟩
          · exact congrArg (Prod.mk r.destination.toNat) hlen
          · exact congrArg (Prod.mk r.destination.toNat) (hslice hs)
      · rintro cause b₂ ⟨⟨data, h₂, hdata⟩, kind, rfl, hr⟩
        refine ⟨⟨_, h₂.laid h₁, fun hs => ⟨rfl, ?_⟩⟩, ⟨_, rfl⟩, fun hc => ?_⟩
        · have hstart := hdata (by rwa [h₁.carries.site])
          rwa [h₁.carries.bytesAt hs] at hstart
        have hc₁ := hc.carries ho h₁.carries
        rw [h₁.position] at hr
        rcases hr with hr | hr | hr
        · exact hc₁.obliging kind hr
        · exact hc₁.isFile hr
        · exact absurd hc₁.target (by omega)
    · rintro cause b₁ ⟨h₁, kind, rfl, hr⟩
      refine ⟨hnothing h₁, ⟨_, rfl⟩, fun hc => ?_⟩
      rcases hr with hr | hr
      · exact hc.obliging kind hr
      · exact absurd hc.target (by omega)

/-- **All ranges are copied, one after the other**, or the run fails, and then the first of them
were. It crashes only if the number of bytes leaves its 64 bits. -/
theorem ends_copyRanges (job : Job) (b : Bench) (ho : b.IsOpen) (file : Location)
    (total : UInt64) (ranges : List ReuseRange) :
    (job.copyRanges file total ranges).Ends b
      (fun n b' => ∃ patches : List Patch, patches.map Patch.span = ranges.map ReuseRange.span ∧
        n.toNat = total.toNat + sumOf (ranges.map (·.span.2)) ∧
        b.Laid patches b' ∧ b.OnlyFiles b' ∧
        (b.1.site ≠ some file → patches = ranges.map (·.slice (b.2.disk.bytesAt file))))
      fun cause b' => (∃ patches, b.Laid patches b' ∧
        (b.1.site ≠ some file →
          Begun patches (ranges.map (·.slice (b.2.disk.bytesAt file))))) ∧
        match cause with
        | .crashed => UInt64.size ≤ total.toNat + sumOf (ranges.map (·.span.2))
        | .failed _ => ¬ ∀ r ∈ ranges, CanCopy b file r := by
  -- the output of one range is where the next one starts from, and the total counts along
  induction ranges generalizing b total with
  | nil =>
    exact ⟨[], rfl, rfl, .nil (.refl b), .refl b, fun _ => rfl⟩
  | cons r rest ih =>
    unfold copyRanges
    rw [ends_bind]
    refine (job.ends_copyRange b ho file r).mono ?_ ?_
    · rintro n b₁ ⟨patch, hspan, rfl, h₁, hp₁, hslice⟩
      rw [ends_bind, ends_orCrash]
      rcases hw : word? (total.toNat + r.length.toNat) with _ | next
      · -- the total leaves its 64 bits: that is the only crash
        refine ⟨⟨[patch], h₁, fun hs => .part ?_⟩, ?_⟩
        · rw [hslice hs]
          exact ⟨rfl, List.prefix_refl _⟩
        have hlarge := word?_eq_none.mp hw
        rw [List.map_cons, sumOf_cons]
        change UInt64.size ≤ total.toNat + (r.length.toNat + _)
        omega
      · have hnext := toNat_word? hw
        refine (ih b₁ (h₁.carries.isOpen ho) next).mono ?_ ?_
        · rintro n b₂ ⟨patches, hspans, hn, h₂, hp₂, hslices⟩
          refine ⟨patch :: patches, ?_, ?_, h₁.append h₂, hp₁.trans hp₂, fun hs => ?_⟩
          · rw [List.map_cons, List.map_cons, hspan, hspans]
          · rw [hn, hnext, List.map_cons, sumOf_cons, Nat.add_assoc]
            rfl
          · rw [List.map_cons, hslice hs, hslices (by rwa [h₁.carries.site]),
              h₁.carries.bytesAt hs]
        · rintro cause b₂ ⟨⟨patches, h₂, hbegun⟩, hcause⟩
          refine ⟨⟨patch :: patches, h₁.append h₂, fun hs => ?_⟩, ?_⟩
          · have hrest := hbegun (by rwa [h₁.carries.site])
            rw [h₁.carries.bytesAt hs] at hrest
            rw [hslice hs]
            exact .next hrest
          cases cause with
          | crashed =>
            dsimp only at hcause ⊢
            rw [List.map_cons, sumOf_cons, ← Nat.add_assoc]
            rwa [hnext] at hcause
          | failed fault =>
            intro hall
            refine hcause fun r' hr' => ?_
            exact (hall r' (List.mem_cons_of_mem _ hr')).carries ho h₁.carries
    · rintro cause b₁ ⟨⟨patch, h₁, hpart⟩, ⟨fault, rfl⟩, hno⟩
      exact ⟨⟨[patch], h₁, fun hs => .part (hpart hs)⟩,
        fun hall => hno (hall r List.mem_cons_self)⟩

/-- Nothing is in the way of copying what a plan reuses: the seed is a file, apart from the one that
is written, and has all the ranges. -/
structure CanCopyAll (job : Job) (b : Bench) (file : Location) (seed : List UInt8) : Prop where
  obliging : b.2.disk.IsObliging
  isSeed : b.2.disk.FileAt job.seed file seed
  apart : b.1.site ≠ some file
  source : ∀ r ∈ job.plan.reuse, r.IsIn seed
  reach : ∀ r ∈ job.plan.reuse, r.source.toNat ≤ fileLimit
  target : ∀ r ∈ job.plan.reuse, r.destination.toNat + r.length.toNat ≤ fileLimit
  total : job.plan.reused < UInt64.size

/-- Nothing is done if there is nothing to copy; not even the seed is opened. -/
theorem copyReuse_of_nil (h : job.plan.reuse = []) : job.copyReuse = pure 0 := by
  rw [copyReuse, h]
  rfl

/-- **Copying everything** is opening the seed and copying range after range, if there is one. -/
theorem ends_copyReuse_cases {b : Bench} {post : UInt64 → Bench → Prop}
    {fail : Stop RebuildFault → Bench → Prop} (hnil : job.plan.reuse = [] → post 0 b)
    (hopen : job.plan.reuse ≠ [] →
      (Bench.onWorld (World.onDisk (openForReading job.seed))).Ends b
        (fun file b' => (job.copyRanges file 0 job.plan.reuse).Ends b' post fail) fail) :
    job.copyReuse.Ends b post fail := by
  by_cases hreuse : job.plan.reuse = []
  · rw [copyReuse_of_nil hreuse]
    exact hnil hreuse
  · rw [copyReuse, if_neg (mt List.isEmpty_iff.mp hreuse), ends_bind]
    exact hopen hreuse

/-- **What copying everything does.** -/
theorem ends_copyReuse (job : Job) (b : Bench) (ho : b.IsOpen) :
    job.copyReuse.Ends b
      (fun n b' => ∃ patches : List Patch,
        patches.map Patch.span = job.plan.reuse.map ReuseRange.span ∧
        n.toNat = job.plan.reused ∧ b.Laid patches b' ∧ b.OnlyFiles b' ∧
        ∀ file seed, b.2.disk.FileAt job.seed file seed → b.1.site ≠ some file →
          patches = job.plan.reuse.map (·.slice seed))
      fun cause b' => (∃ patches, b.Laid patches b' ∧
        ∀ file seed, b.2.disk.FileAt job.seed file seed → b.1.site ≠ some file →
          Begun patches (job.plan.reuse.map (·.slice seed))) ∧
        job.plan.reuse ≠ [] ∧
        (∀ file seed, ¬ job.CanCopyAll b file seed) ∧
        (cause = .crashed → UInt64.size ≤ job.plan.reused) := by
  refine ends_copyReuse_cases (fun hnil => ?_) fun hreuse => ?_
  · rw [Plan.reused, hnil]
    exact ⟨[], rfl, rfl, .nil (.refl b), .refl b, fun _ _ _ _ => rfl⟩
  · rw [Bench.ends_onWorld, Bench.ends_onDisk]
    refine (ends_openForReading b.2.disk job.seed).mono ?_ ?_
    · rintro file d ⟨hk, e, hw⟩
      have h₁ := Bench.carries_of_disk b { b.2 with disk := d } hk rfl
      -- the file that was opened is the seed
      have hseed {file' : Location} {seed : List UInt8}
          (hfile : b.2.disk.FileAt job.seed file' seed) :
          file' = file ∧ b.2.disk.tree.get? file ≠ some .folder ∧
            b.2.disk.bytesAt file = seed := by
        obtain ⟨rfl, -⟩ := hfile.eq_of_walk hw
        obtain ⟨mode, time, hget⟩ := hfile.get?
        exact ⟨rfl, by rw [hget]; exact nofun, hfile.bytesAt⟩
      refine (job.ends_copyRanges _ (h₁.carries.isOpen ho) file 0 job.plan.reuse).mono ?_ ?_
      · rintro n b₂ ⟨patches, hspans, hn, h₂, hp₂, hslices⟩
        refine ⟨patches, hspans, hn.trans (Nat.zero_add _), (Bench.Laid.nil h₁).append h₂, hp₂,
          fun file' seed hfile hapart => ?_⟩
        obtain ⟨rfl, _, hbytes⟩ := hseed hfile
        rw [hslices hapart, h₁.carries.bytesAt hapart, hbytes]
      · rintro cause b₂ ⟨⟨patches, h₂, hbegun⟩, hcause⟩
        refine ⟨⟨patches, (Bench.Laid.nil h₁).append h₂, fun file' seed hfile hapart => ?_⟩, hreuse,
          fun file' seed hc => ?_, ?_⟩
        · obtain ⟨rfl, _, hbytes⟩ := hseed hfile
          rw [← hbytes, ← h₁.carries.bytesAt hapart]
          exact hbegun hapart
        · obtain ⟨rfl, hget, hbytes⟩ := hseed hc.isSeed
          cases cause with
          | crashed =>
            dsimp only at hcause
            have hzero : (0 : UInt64).toNat = 0 := rfl
            have := hc.total
            rw [Plan.reused] at this
            omega
          | failed fault =>
            refine hcause fun r hr => CanCopy.carries ⟨hc.obliging, hc.apart, hget, ?_,
              hc.reach r hr, hc.target r hr⟩ ho h₁.carries
            rw [hbytes]
            exact hc.source r hr
        · rintro rfl
          dsimp only at hcause
          have hzero : (0 : UInt64).toNat = 0 := rfl
          rw [Plan.reused]
          omega
    · rintro kind d ⟨hk, hr⟩
      have h₁ := Bench.carries_of_disk b { b.2 with disk := d } hk rfl
      refine ⟨⟨[], .nil h₁, fun _ _ _ _ => .nothing⟩, hreuse, fun file seed hc => ?_, nofun⟩
      rcases hr with hr | hr
      · exact hc.obliging kind hr
      · obtain ⟨mode, time, hw⟩ := hc.isSeed
        exact not_taken_of_missing hr hw

/-- **A seed that is missing is not copied from**: as soon as a range is to be copied, the run fails
with the reason for which nothing is found at the path. -/
theorem ends_copyReuse_of_missing (job : Job) (b : Bench) (hreuse : job.plan.reuse ≠ [])
    {kind : IoKind} (hmissing : b.2.disk.missing? job.seed = some kind) :
    job.copyReuse.Ends b (fun _ _ => False)
      fun cause _ => ∃ reason, cause = .failed (.files reason) ∧
        (b.2.disk.Refuses reason ∨ reason = kind) := by
  refine ends_copyReuse_cases (fun hnil => absurd hnil hreuse) fun _ => ?_
  rw [Bench.ends_onWorld, Bench.ends_onDisk]
  refine (ends_openForReading b.2.disk job.seed).mono ?_ ?_
  · rintro place d ⟨_, e, hw⟩
    exact absurd hw (not_taken_of_missing hmissing)
  · rintro reason d ⟨_, hr⟩
    refine ⟨reason, rfl, hr.imp_right fun hfound => ?_⟩
    exact Option.some.inj (hfound.symm.trans hmissing)

end Job
end RangeSync
