import RangeSync.Plan.Basic
import RangeSync.Proofs.Bytes

/-!
# What a plan makes

A plan names spans of the target, the reused ones and the downloaded ones, and a run fills one after
the other. `RangeSync.Plan.Makes` says that bytes are such an output: zeros with a patch laid over
each span, in the order of the plan, and each patch has as many bytes as its span. It says nothing
of where the bytes of the patches come from.

The sums of the lengths are words of 64 bits in a run; here they are numbers, and
`RangeSync.toNat_sumWords?` says that the words agree with them.
-/

namespace RangeSync

open Disk

/-! ### Sums -/

/-- The sum of lengths. -/
def sumOf (lengths : List Nat) : Nat :=
  lengths.foldr (· + ·) 0

@[simp] theorem sumOf_nil : sumOf [] = 0 :=
  rfl

@[simp] theorem sumOf_cons {n : Nat} {rest : List Nat} : sumOf (n :: rest) = n + sumOf rest :=
  rfl

theorem sumOf_append {lengths more : List Nat} :
    sumOf (lengths ++ more) = sumOf lengths + sumOf more := by
  induction lengths with
  | nil => exact (Nat.zero_add _).symm
  | cons n rest ih => rw [List.cons_append, sumOf_cons, sumOf_cons, ih, Nat.add_assoc]

theorem toNat_word? {n : Nat} {w : UInt64} (h : word? n = some w) : w.toNat = n := by
  unfold word? at h
  split at h
  · rename_i hlt
    cases h
    exact UInt64.toNat_ofNat_of_lt' hlt
  · cases h

theorem word?_eq_none {n : Nat} : word? n = none ↔ UInt64.size ≤ n := by
  unfold word?
  split
  · rename_i hlt
    exact ⟨nofun, fun hle => absurd hlt (by omega)⟩
  · rename_i hlt
    exact ⟨fun _ => by omega, fun _ => rfl⟩

theorem word?_isSome {n : Nat} (h : n < UInt64.size) : ∃ w, word? n = some w :=
  ⟨_, if_pos h⟩

theorem foldlM_word? {words : List UInt64} {start : UInt64} :
    (∀ total, words.foldlM (fun total w => word? (total.toNat + w.toNat)) start = some total →
      total.toNat = start.toNat + sumOf (words.map UInt64.toNat)) ∧
    (start.toNat + sumOf (words.map UInt64.toNat) < UInt64.size →
      (words.foldlM (fun total w => word? (total.toNat + w.toNat)) start).isSome) := by
  induction words generalizing start with
  | nil => exact ⟨fun total h => by cases h; rfl, fun _ => rfl⟩
  | cons w rest ih =>
    rw [List.foldlM_cons, List.map_cons, sumOf_cons]
    rcases hw : word? (start.toNat + w.toNat) with _ | next
    · have hlarge := word?_eq_none.mp hw
      exact ⟨nofun, fun hlt => absurd hlt (by omega)⟩
    · have hnext := toNat_word? hw
      refine ⟨fun total h => ?_, fun hlt => ?_⟩
      · have := (@ih next).1 total h
        omega
      · exact (@ih next).2 (by omega)

/-- **A sum of words is the sum of the numbers.** -/
theorem toNat_sumWords? {words : List UInt64} {total : UInt64} (h : sumWords? words = some total) :
    total.toNat = sumOf (words.map UInt64.toNat) := by
  rw [foldlM_word?.1 total h]
  exact Nat.zero_add _

theorem sumWords?_isSome {words : List UInt64}
    (h : sumOf (words.map UInt64.toNat) < UInt64.size) : ∃ total, sumWords? words = some total := by
  refine Option.isSome_iff_exists.mp (foldlM_word?.2 ?_)
  have hzero : (0 : UInt64).toNat = 0 := rfl
  omega

/-! ### Spans -/

/-- A position in the target, and a number of bytes. -/
abbrev Extent := Nat × Nat

/-- Where a patch goes and how many bytes it has. -/
def Disk.Patch.span (patch : Patch) : Extent :=
  (patch.1, patch.2.length)

/-- The part of the target that a reuse range fills. -/
def ReuseRange.span (r : ReuseRange) : Extent :=
  (r.destination.toNat, r.length.toNat)

/-- The part of the target that a download range fills. -/
def DownloadRange.span (d : DownloadRange) : Extent :=
  (d.first.toNat, d.last.toNat + 1 - d.first.toNat)

/-- The bytes of the seed that a reuse range copies, and where they go. -/
def ReuseRange.slice (r : ReuseRange) (seed : List UInt8) : Patch :=
  (r.destination.toNat, (seed.drop r.source.toNat).take r.length.toNat)

/-- The bytes of a file that a download range asks for, and where they go. -/
def DownloadRange.slice (d : DownloadRange) (file : List UInt8) : Patch :=
  (d.first.toNat, (file.drop d.first.toNat).take (d.last.toNat + 1 - d.first.toNat))

theorem DownloadRange.toNat_length? {d : DownloadRange} {n : UInt64} (h : d.length? = some n) :
    n.toNat = d.span.2 := by
  unfold length? at h
  rcases hb : word? (d.last.toNat + 1) with _ | beyond
  · rw [hb] at h
    cases h
  · rw [hb] at h
    cases h
    have hbeyond := toNat_word? hb
    have hlt := beyond.toNat_lt_size
    rw [UInt64.toNat_ofNat_of_lt' (by omega), hbeyond]
    rfl

/-- A range has a length if the offset behind it is a word. -/
theorem DownloadRange.length?_ne_none {d : DownloadRange}
    (h : d.last.toNat + 1 < UInt64.size) : d.length? ≠ none := by
  obtain ⟨beyond, hbeyond⟩ := word?_isSome h
  rw [length?, hbeyond]
  exact nofun

/-- A range has a length if there is an offset behind its last byte. -/
theorem DownloadRange.length?_ne_none_of_lt {d : DownloadRange} {target : UInt64}
    (h : d.last.toNat < target.toNat) : d.length? ≠ none := by
  have hlimit := target.toNat_lt_size
  exact length?_ne_none (by omega)

/-- A range has a length if a file can be so long that it has the last byte. -/
theorem DownloadRange.length_ne_none {d : DownloadRange} (h : d.last.toNat < fileLimit) :
    d.length? ≠ none :=
  length?_ne_none_of_lt (show d.last.toNat < (UInt64.ofNat fileLimit).toNat from h)

/-- The seed has all bytes of the range. A range without bytes may be anywhere. -/
def ReuseRange.IsIn (r : ReuseRange) (seed : List UInt8) : Prop :=
  0 < r.length.toNat → r.source.toNat + r.length.toNat ≤ seed.length

/-- **What is copied is as long as the range** exactly if the range is in the seed. -/
theorem ReuseRange.length_slice_iff {r : ReuseRange} {seed : List UInt8} :
    (r.slice seed).2.length = r.length.toNat ↔ r.IsIn seed := by
  change ((seed.drop r.source.toNat).take r.length.toNat).length = r.length.toNat ↔ _
  unfold IsIn
  rw [List.length_take, List.length_drop]
  omega

theorem ReuseRange.length_slice {r : ReuseRange} {seed : List UInt8}
    (h : r.source.toNat + r.length.toNat ≤ seed.length) :
    (r.slice seed).2.length = r.length.toNat :=
  length_slice_iff.mpr fun _ => h

theorem DownloadRange.length_slice {d : DownloadRange} {file : List UInt8}
    (hd : d.first.toNat ≤ d.last.toNat) (hlast : d.last.toNat < file.length) :
    (d.slice file).2.length = d.span.2 := by
  change ((file.drop d.first.toNat).take (d.last.toNat + 1 - d.first.toNat)).length =
    d.last.toNat + 1 - d.first.toNat
  rw [List.length_take, List.length_drop]
  omega

namespace Plan

variable {p : Plan} {target : UInt64} {bytes : List UInt8}

/-- The parts of the target that are filled, in order. -/
def spans (p : Plan) : List Extent :=
  p.reuse.map ReuseRange.span ++ p.download.map DownloadRange.span

/-- The number of bytes that are reused. -/
def reused (p : Plan) : Nat :=
  sumOf (p.reuse.map (·.span.2))

/-- The number of bytes that are downloaded. -/
def downloaded (p : Plan) : Nat :=
  sumOf (p.download.map (·.span.2))

theorem reused_eq_sumOf : p.reused = sumOf ((p.reuse.map ReuseRange.length).map UInt64.toNat) := by
  rw [List.map_map]
  rfl

/-- The total of the reused bytes is their number. -/
theorem toNat_reuseTotal? {total : UInt64} (h : p.reuseTotal? = some total) :
    total.toNat = p.reused := by
  rw [toNat_sumWords? h, reused_eq_sumOf]

theorem reuseTotal?_isSome (h : p.reused < UInt64.size) : ∃ total, p.reuseTotal? = some total :=
  sumWords?_isSome (reused_eq_sumOf ▸ h)

/-- **The bytes are an output of the plan**: zeros with a patch of the right length laid over each
span, one after the other. -/
def Makes (p : Plan) (length : Nat) (bytes : List UInt8) : Prop :=
  ∃ patches : List Patch, patches.map Patch.span = p.spans ∧
    bytes = patched (List.replicate length 0) patches

/-- **The bytes are an output of the plan from a seed**: the reused spans hold what the seed has. -/
def MakesFrom (p : Plan) (seed : List UInt8) (length : Nat) (bytes : List UInt8) : Prop :=
  ∃ patches : List Patch, patches.map Patch.span = p.download.map DownloadRange.span ∧
    bytes = patched (List.replicate length 0) (p.reuse.map (·.slice seed) ++ patches)

/-- The plan was made for the target, and all of its ranges lie inside. -/
structure IsFor (p : Plan) (target : UInt64) : Prop where
  length : ∀ n, p.length = some n → n = target
  reuse : ∀ r ∈ p.reuse, r.destination.toNat + r.length.toNat ≤ target.toNat
  download : ∀ d ∈ p.download, d.first.toNat ≤ d.last.toNat ∧ d.last.toNat < target.toNat

theorem find?_not_eq_none {α : Type} {q : α → Bool} {l : List α} :
    l.find? (!q ·) = none ↔ ∀ a ∈ l, q a = true := by
  simp

/-- **A plan passes its check exactly if it is for the target.** The ends of the ranges are compared
as numbers, so none of them wraps around at 64 bits. -/
theorem check_eq_ok_iff : p.check target = .ok () ↔ p.IsFor target := by
  have hlength : p.length.filter (· != target) = none ↔ ∀ n, p.length = some n → n = target := by
    cases p.length <;> simp
  have hreuse (r : ReuseRange) :
      r.fits target = true ↔ r.destination.toNat + r.length.toNat ≤ target.toNat := by
    simp [ReuseRange.fits]
  have hdownload (d : DownloadRange) : d.fits target = true ↔
      d.first.toNat ≤ d.last.toNat ∧ d.last.toNat < target.toNat := by
    simp only [DownloadRange.fits, Bool.and_eq_true, decide_eq_true_eq]
    exact Iff.rfl
  -- the first fault that is found is the answer, so all three searches have to find none
  have hsearches : p.check target = .ok () ↔ p.length.filter (· != target) = none ∧
      p.reuse.find? (!·.fits target) = none ∧ p.download.find? (!·.fits target) = none := by
    unfold check
    cases p.length.filter (· != target) <;> cases p.reuse.find? (!·.fits target) <;>
      cases p.download.find? (!·.fits target) <;> simp
  rw [hsearches, hlength, find?_not_eq_none, find?_not_eq_none]
  simp only [hreuse, hdownload]
  exact ⟨fun ⟨h, h', h''⟩ => ⟨h, h', h''⟩, fun ⟨h, h', h''⟩ => ⟨h, h', h''⟩⟩

theorem isFor_of_check (h : p.check target = .ok ()) : p.IsFor target :=
  check_eq_ok_iff.mp h

/-- Every span of a plan for a target ends inside of it. -/
theorem IsFor.spans_fit (h : p.IsFor target) :
    ∀ span ∈ p.spans, span.1 + span.2 ≤ target.toNat := by
  intro span hspan
  rcases List.mem_append.mp hspan with hspan | hspan
  · obtain ⟨r, hr, rfl⟩ := List.mem_map.mp hspan
    exact h.reuse r hr
  · obtain ⟨d, hd, rfl⟩ := List.mem_map.mp hspan
    have := h.download d hd
    change d.first.toNat + (d.last.toNat + 1 - d.first.toNat) ≤ target.toNat
    omega

/-- **An output of a plan for a target has the length of the target.** -/
theorem IsFor.length_of_makes (h : p.IsFor target) (hm : p.Makes target.toNat bytes) :
    bytes.length = target.toNat := by
  obtain ⟨patches, hspans, rfl⟩ := hm
  rw [length_patched, List.length_replicate]
  intro patch hpatch
  rw [List.length_replicate]
  exact h.spans_fit patch.span (hspans ▸ List.mem_map_of_mem hpatch)

/-! ### Plans that fit -/

variable {seed file : List UInt8}

/-- **The plan fits a seed and a file**: it passes its check, it leaves out no offset of the file,
and what it reuses is in the seed and is the same in the file. -/
structure Fits (p : Plan) (seed file : List UInt8) : Prop where
  check : p.check (UInt64.ofNat file.length) = .ok ()
  covers : ∀ i, i < file.length →
    (∃ r ∈ p.reuse, r.destination.toNat ≤ i ∧ i < r.destination.toNat + r.length.toNat) ∨
      ∃ d ∈ p.download, d.first.toNat ≤ i ∧ i ≤ d.last.toNat
  source : ∀ r ∈ p.reuse, r.source.toNat + r.length.toNat ≤ seed.length
  same : ∀ r ∈ p.reuse, (seed.drop r.source.toNat).take r.length.toNat =
    (file.drop r.destination.toNat).take r.length.toNat
  reused : p.reused < UInt64.size
  downloaded : p.downloaded < UInt64.size

/-- What a plan that fits copies from the seed and from the file. -/
theorem Fits.mem_slices (h : p.Fits seed file) (hsize : file.length ≤ fileLimit) {patch : Patch}
    (hp : patch ∈ p.reuse.map (·.slice seed) ++ p.download.map (·.slice file)) :
    patch.Fits file.length ∧ patch.IsOf file := by
  have hfor := isFor_of_check h.check
  have htarget : (UInt64.ofNat file.length).toNat = file.length :=
    UInt64.toNat_ofNat_of_lt' (Nat.lt_of_le_of_lt hsize (by decide))
  rcases List.mem_append.mp hp with hp | hp
  · obtain ⟨r, hr, rfl⟩ := List.mem_map.mp hp
    have hlen := ReuseRange.length_slice (h.source r hr)
    have hfits := hfor.reuse r hr
    rw [htarget] at hfits
    constructor
    · rw [Patch.Fits, hlen]
      exact hfits
    · rw [Patch.IsOf, hlen]
      exact h.same r hr
  · obtain ⟨d, hd, rfl⟩ := List.mem_map.mp hp
    obtain ⟨horder, hlast⟩ := hfor.download d hd
    rw [htarget] at hlast
    have hlen := DownloadRange.length_slice horder hlast
    constructor
    · rw [Patch.Fits, hlen]
      change d.first.toNat + (d.last.toNat + 1 - d.first.toNat) ≤ file.length
      omega
    · rw [Patch.IsOf, hlen]
      rfl

/-- **A plan that fits makes the file.** -/
theorem Fits.patched_eq (h : p.Fits seed file) (hsize : file.length ≤ fileLimit) :
    patched (List.replicate file.length 0)
      (p.reuse.map (·.slice seed) ++ p.download.map (·.slice file)) = file := by
  have hfor := isFor_of_check h.check
  have htarget : (UInt64.ofNat file.length).toNat = file.length :=
    UInt64.toNat_ofNat_of_lt' (Nat.lt_of_le_of_lt hsize (by decide))
  refine patched_eq_of_covers List.length_replicate (fun _ hp => (h.mem_slices hsize hp).1)
    (fun _ hp => (h.mem_slices hsize hp).2) fun i hi => ?_
  rcases h.covers i hi with ⟨r, hr, hfirst, hlast⟩ | ⟨d, hd, hfirst, hlast⟩
  · refine ⟨r.slice seed, List.mem_append_left _ (List.mem_map_of_mem hr), hfirst, ?_⟩
    rw [ReuseRange.length_slice (h.source r hr)]
    exact hlast
  · obtain ⟨horder, hinside⟩ := hfor.download d hd
    rw [htarget] at hinside
    refine ⟨d.slice file, List.mem_append_right _ (List.mem_map_of_mem hd), hfirst, ?_⟩
    rw [DownloadRange.length_slice horder hinside]
    change i < d.first.toNat + (d.last.toNat + 1 - d.first.toNat)
    omega

/-- The plan without ranges fits an empty file. -/
theorem fits_empty : empty.Fits [] [] := by
  constructor
  case check => rfl
  case covers => exact fun i hi => absurd hi (Nat.not_lt_zero i)
  case source | same => exact nofun
  case reused | downloaded => exact (by decide : 0 < UInt64.size)

end Plan
end RangeSync
