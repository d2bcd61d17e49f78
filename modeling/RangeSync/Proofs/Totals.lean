import Mathlib.Data.Finset.Card
import Mathlib.Order.Interval.Finset.Nat
import RangeSync.Proofs.Order
import RangeSync.Proofs.Printed

/-!
# The totals of a plan

The totals of a plan are two sums of lengths. What they should say is about the offsets of the
target: how many of them are reused and how many are downloaded. In general they do not say that,
since ranges may overlap, and then an offset is counted twice.

Where no offset is in two ranges, lengths and offsets agree. The ranges stand in no order, and reuse
ranges are written in another way than download ranges, but both are spans
(`RangeSync.Plan.spans`), and **the lengths of spans that are apart add up to the number of offsets
that they cover** (`RangeSync.card_offsetsIn`). This is an induction over the spans, one of which is
taken away at a time. It follows that the totals fit into their 64 bits and do not exceed the
target, and that they reach it exactly if nothing is left out
(`RangeSync.Plan.totals_of_disjoint`).

Of ranges in general it can still be said that the arithmetic on them is exact
(`RangeSync.Plan.totals_are_exact`). A length is a difference of words, and a total is a sum of
them; either is a word if the integer that it should be is one. The one exception is the last offset
of all: there is no word behind it, and a range that ends there has no length, however short it is
(`RangeSync.Plan.last_offset_has_no_length`).
-/

namespace RangeSync

/-! ### Offsets in spans -/

/-- The offsets below a bound that are in one of the spans. -/
def offsetsIn (spans : List Extent) (bound : Nat) : Finset Nat :=
  (Finset.range bound).filter fun i => ∃ span ∈ spans, span.1 ≤ i ∧ i < span.1 + span.2

variable {spans : List Extent} {span : Extent} {bound i : Nat}

theorem mem_offsetsIn :
    i ∈ offsetsIn spans bound ↔ i < bound ∧ ∃ span ∈ spans, span.1 ≤ i ∧ i < span.1 + span.2 := by
  rw [offsetsIn, Finset.mem_filter, Finset.mem_range]

/-- The offsets of one more span. -/
theorem offsetsIn_cons (hfits : span.1 + span.2 ≤ bound) :
    offsetsIn (span :: spans) bound =
      Finset.Ico span.1 (span.1 + span.2) ∪ offsetsIn spans bound := by
  ext i
  rw [Finset.mem_union, Finset.mem_Ico, mem_offsetsIn, mem_offsetsIn, List.exists_mem_cons_iff,
    and_or_left]
  exact or_congr_left ⟨fun h => h.2, fun h => ⟨by omega, h⟩⟩

/-- **The lengths of spans that are apart are the number of offsets in them.** -/
theorem card_offsetsIn (hapart : spans.Pairwise Extent.IsApart)
    (hfits : ∀ span ∈ spans, span.1 + span.2 ≤ bound) :
    (offsetsIn spans bound).card = sumOf (spans.map (·.2)) := by
  induction spans with
  | nil =>
    refine Finset.card_eq_zero.mpr (Finset.filter_eq_empty_iff.mpr fun i _ => ?_)
    rintro ⟨span, hspan, _⟩
    exact List.not_mem_nil hspan
  | cons span rest ih =>
    obtain ⟨hspan, hrest⟩ := List.pairwise_cons.mp hapart
    obtain ⟨hfit, hfits⟩ := List.forall_mem_cons.mp hfits
    have hdisjoint : Disjoint (Finset.Ico span.1 (span.1 + span.2)) (offsetsIn rest bound) := by
      rw [Finset.disjoint_left]
      intro i hi hin
      obtain ⟨_, other, hother, hhas⟩ := mem_offsetsIn.mp hin
      exact hspan other hother i (Finset.mem_Ico.mp hi) hhas
    rw [offsetsIn_cons hfit, Finset.card_union_of_disjoint hdisjoint, Nat.card_Ico, ih hrest hfits,
      Nat.add_sub_cancel_left, List.map_cons, sumOf_cons]

namespace Plan

variable {p : Plan} {target : UInt64}

/-! ### Offsets of a plan -/

/-- The offset is filled with a byte of the seed. -/
def Reuses (p : Plan) (i : Nat) : Prop :=
  ∃ r ∈ p.reuse, r.destination.toNat ≤ i ∧ i < r.destination.toNat + r.length.toNat

/-- The offset is filled with a byte that is downloaded. -/
def Downloads (p : Plan) (i : Nat) : Prop :=
  ∃ d ∈ p.download, d.first.toNat ≤ i ∧ i ≤ d.last.toNat

instance : DecidablePred p.Reuses :=
  fun i => inferInstanceAs (Decidable (∃ r ∈ p.reuse, r.destination.toNat ≤ i ∧
    i < r.destination.toNat + r.length.toNat))

instance : DecidablePred p.Downloads :=
  fun i => inferInstanceAs (Decidable (∃ d ∈ p.download, d.first.toNat ≤ i ∧ i ≤ d.last.toNat))

/-- **No offset of the target is left out.** -/
def Covers (p : Plan) (target : UInt64) : Prop :=
  ∀ i < target.toNat, p.Reuses i ∨ p.Downloads i

theorem reuses_iff : p.Reuses i ↔
    ∃ span ∈ p.reuse.map ReuseRange.span, span.1 ≤ i ∧ i < span.1 + span.2 := by
  simp only [List.mem_map, exists_exists_and_eq_and]
  rfl

theorem downloads_iff : p.Downloads i ↔
    ∃ span ∈ p.download.map DownloadRange.span, span.1 ≤ i ∧ i < span.1 + span.2 := by
  simp only [List.mem_map, exists_exists_and_eq_and]
  refine exists_congr fun d => and_congr_right fun _ => and_congr_right fun hfirst => ?_
  change i ≤ d.last.toNat ↔ i < d.first.toNat + (d.last.toNat + 1 - d.first.toNat)
  omega

/-- An offset is in a span if it is reused or downloaded. -/
theorem exists_span_iff : (∃ span ∈ p.spans, span.1 ≤ i ∧ i < span.1 + span.2) ↔
    p.Reuses i ∨ p.Downloads i := by
  simp only [spans, List.mem_append, or_and_right, exists_or, reuses_iff, downloads_iff]

/-! ### Totals -/

/-- Both totals together are the lengths of all spans. -/
theorem sumOf_spans : sumOf (p.spans.map (·.2)) = p.reused + p.downloaded := by
  rw [spans, List.map_append, List.map_map, List.map_map, sumOf_append]
  rfl

/-- The number of offsets that are reused or downloaded. -/
theorem card_covered (hfor : p.IsFor target) (hdisjoint : p.IsDisjoint) :
    ((Finset.range target.toNat).filter fun i => p.Reuses i ∨ p.Downloads i).card =
      p.reused + p.downloaded := by
  rw [← sumOf_spans, ← card_offsetsIn hdisjoint hfor.spans_fit, offsetsIn]
  exact congrArg Finset.card (Finset.filter_congr fun i _ => exists_span_iff.symm)

/-- The number of offsets that are reused. -/
theorem card_reused (hfor : p.IsFor target) (hdisjoint : p.IsDisjoint) :
    ((Finset.range target.toNat).filter p.Reuses).card = p.reused := by
  have hreuse : (p.reuse.map ReuseRange.span).Pairwise Extent.IsApart :=
    (List.pairwise_append.mp hdisjoint).1
  have hfits : ∀ span ∈ p.reuse.map ReuseRange.span, span.1 + span.2 ≤ target.toNat :=
    fun span hspan => hfor.spans_fit span (List.mem_append_left _ hspan)
  have hcard := card_offsetsIn hreuse hfits
  rw [List.map_map] at hcard
  refine Eq.trans (congrArg Finset.card (Finset.filter_congr fun i _ => ?_)) hcard
  exact reuses_iff

/-- **The totals of a plan whose ranges are apart**: they fit into their 64 bits, and together they
are at most the length of the target. They are that length exactly if no offset is left out, and
then the bytes that are announced before the download are the offsets that are not reused. The
announcement makes them the total of whoever listens, and it changes nothing else. -/
theorem totals_of_disjoint (p : Plan) (target : UInt64) (hcheck : p.check target = .ok ())
    (hdisjoint : p.IsDisjoint) :
    ∃ reused downloaded : UInt64,
      p.reuseTotal? = some reused ∧ p.downloadTotal? = some downloaded ∧
      reused.toNat + downloaded.toNat ≤ target.toNat ∧
      (reused.toNat + downloaded.toNat = target.toNat ↔ p.Covers target) ∧
      (p.Covers target →
        downloaded.toNat = ((Finset.range target.toNat).filter fun i => ¬ p.Reuses i).card) ∧
      (∀ w : World, Act.runOn (World.announce downloaded) w =
        (.ok (), { w with progress := w.progress.map fun t => { t with total := downloaded } })) ∧
      ∀ (job : Job) (origin : Origin), job.plan = p →
        job.downloadAll (some origin) = (do
          Bench.onWorld (World.announce downloaded)
          let total ← job.downloadRanges origin 0 p.download
          Bench.onWorld World.assertComplete
          pure total) := by
  have hfor := isFor_of_check hcheck
  have hcovered := card_covered hfor hdisjoint
  have hrange : (Finset.range target.toNat).card = target.toNat := Finset.card_range _
  have hle : p.reused + p.downloaded ≤ target.toNat := by
    rw [← hcovered]
    exact (Finset.card_filter_le _ _).trans hrange.le
  have hlimit := target.toNat_lt_size
  obtain ⟨reused, hr⟩ := reuseTotal?_isSome (p := p) (by omega)
  obtain ⟨downloaded, hd⟩ := Job.downloadTotal?_isSome (p := p)
    (fun d hd => DownloadRange.length?_ne_none_of_lt (hfor.download d hd).2) (by omega)
  have hequal : p.reused + p.downloaded = target.toNat ↔ p.Covers target := by
    have hall := Finset.card_filter_eq_iff (s := Finset.range target.toNat)
      (p := fun i => p.Reuses i ∨ p.Downloads i)
    rw [hcovered, hrange] at hall
    rw [hall]
    simp only [Finset.mem_range, Covers]
  refine ⟨reused, downloaded, hr, hd, ?_⟩
  rw [toNat_reuseTotal? hr, Job.toNat_downloadTotal? hd]
  refine ⟨hle, hequal, fun hcovers => ?_, fun w => rfl, ?_⟩
  · -- what is not reused is the rest of the target
    have hsum := hequal.mpr hcovers
    have hsplit := Finset.card_filter_add_card_filter_not (s := Finset.range target.toNat) p.Reuses
    rw [card_reused hfor hdisjoint, hrange] at hsplit
    omega
  · rintro job origin rfl
    rw [Job.downloadAll, hd]
    rfl

/-- Ranges in no order, which divide a target of ten bytes. -/
def unsorted : Plan where
  length := some 10
  reuse := [⟨5, 0, 3⟩, ⟨0, 7, 1⟩]
  download := [⟨8, 9⟩, ⟨1, 4⟩]

/-- Of the ten bytes that unsorted ranges divide, four are reused and six are downloaded. -/
theorem totals_unsorted : unsorted.check 10 = .ok () ∧ unsorted.IsDisjoint ∧
    unsorted.Covers 10 ∧ unsorted.reuseTotal? = some 4 ∧ unsorted.downloadTotal? = some 6 ∧
    ((Finset.range 10).filter fun i => ¬ unsorted.Reuses i).card = 6 := by
  have hcheck : unsorted.check 10 = .ok () := by rfl
  have hdisjoint : unsorted.IsDisjoint :=
    List.Pairwise.imp Extent.isApart_of_le (by decide)
  have hcovers : unsorted.Covers 10 := by
    unfold Covers
    decide
  obtain ⟨reused, downloaded, hr, hd, -, -, hrest, -, -⟩ :=
    totals_of_disjoint unsorted 10 hcheck hdisjoint
  have hsix : downloaded = 6 := Option.some.inj (hd.symm.trans (by rfl))
  refine ⟨hcheck, hdisjoint, hcovers, by rfl, by rfl, ?_⟩
  rw [← show (6 : UInt64).toNat = 6 from rfl, ← hsix]
  exact (hrest hcovers).symm

end Plan

/-! ### Totals of any ranges -/

/-- The number of offsets from the first to the last, which may be the wrong way round. -/
def DownloadRange.count (d : DownloadRange) : ℤ :=
  max 0 ((d.last.toNat : ℤ) - d.first.toNat + 1)

namespace DownloadRange

variable {d : DownloadRange} {n : UInt64}

theorem cast_span (d : DownloadRange) : (d.span.2 : ℤ) = d.count := by
  change ((d.last.toNat + 1 - d.first.toNat : ℕ) : ℤ) = max 0 _
  omega

/-- **A range has its number of offsets as its length**, unless it ends at the last offset of
all. -/
theorem length?_eq_some_iff :
    d.length? = some n ↔ d.last.toNat + 1 < UInt64.size ∧ (n.toNat : ℤ) = d.count := by
  rw [← cast_span, Int.natCast_inj]
  constructor
  · intro h
    exact ⟨length?_ne_none_iff.mp (h ▸ Option.some_ne_none n), toNat_length? h⟩
  · rintro ⟨hlast, hn⟩
    obtain ⟨m, hm⟩ := Option.ne_none_iff_exists'.mp (length?_ne_none_iff.mpr hlast)
    rw [hm, UInt64.toNat_inj.mp (hn.trans (toNat_length? hm).symm)]

theorem isEmpty_iff : d.isEmpty = true ↔ d.count = 0 := by
  rw [isEmpty, decide_eq_true_iff, UInt64.lt_iff_toNat_lt, count]
  omega

end DownloadRange

namespace Plan

variable {p : Plan} {total : UInt64}

/-- The bytes that are downloaded are the offsets of the ranges. -/
theorem downloaded_eq (p : Plan) :
    p.downloaded = sumOf (p.download.map fun d => d.count.toNat) := by
  rw [downloaded]
  refine congrArg sumOf (List.map_congr_left fun d _ => ?_)
  rw [← d.cast_span, Int.toNat_natCast]

theorem downloadTotal?_eq_some_iff : p.downloadTotal? = some total ↔
    (∀ d ∈ p.download, d.last.toNat + 1 < UInt64.size) ∧ total.toNat = p.downloaded := by
  constructor
  · intro h
    exact ⟨fun d hd => DownloadRange.length?_ne_none_iff.mp (Job.length?_ne_none_of_total h d hd),
      Job.toNat_downloadTotal? h⟩
  · rintro ⟨hends, hsum⟩
    obtain ⟨total', h⟩ := Job.downloadTotal?_isSome
      (fun d hd => DownloadRange.length?_ne_none_iff.mpr (hends d hd))
      (hsum ▸ total.toNat_lt_size)
    rw [h, UInt64.toNat_inj.mp (hsum.trans (Job.toNat_downloadTotal? h).symm)]

theorem reuseTotal?_eq_some_iff : p.reuseTotal? = some total ↔ total.toNat = p.reused := by
  refine ⟨toNat_reuseTotal?, fun hsum => ?_⟩
  obtain ⟨total', h⟩ := reuseTotal?_isSome (hsum ▸ total.toNat_lt_size)
  rw [h, UInt64.toNat_inj.mp (hsum.trans (toNat_reuseTotal? h).symm)]

/-- **Lengths and totals are exact**, whatever the ranges are. A range has its number of offsets as
its length, if there is a word behind its last offset, and is empty exactly if that number is zero.
The totals are the sums of the lengths: there is one exactly if the sum is a word, and if, among the
ranges that are downloaded, none ends at the last offset of all. -/
theorem totals_are_exact (p : Plan) :
    (∀ (d : DownloadRange) (n : UInt64),
      d.length? = some n ↔ d.last.toNat + 1 < UInt64.size ∧ (n.toNat : ℤ) = d.count) ∧
    (∀ d : DownloadRange, d.isEmpty = true ↔ d.count = 0) ∧
    (∀ total : UInt64, p.downloadTotal? = some total ↔
      (∀ d ∈ p.download, d.last.toNat + 1 < UInt64.size) ∧
        total.toNat = sumOf (p.download.map fun d => d.count.toNat)) ∧
    ∀ total : UInt64, p.reuseTotal? = some total ↔
      total.toNat = sumOf (p.reuse.map (·.length.toNat)) := by
  refine ⟨fun d n => DownloadRange.length?_eq_some_iff, fun d => DownloadRange.isEmpty_iff,
    fun total => ?_, fun total => reuseTotal?_eq_some_iff⟩
  rw [downloadTotal?_eq_some_iff, downloaded_eq]

/-- **A range up to the last offset of all has no length**, although its number of offsets is a
word; nor has a plan with that range a total. -/
theorem last_offset_has_no_length :
    (⟨1, 0xFFFFFFFFFFFFFFFF⟩ : DownloadRange).count = 0xFFFFFFFFFFFFFFFF ∧
      (⟨1, 0xFFFFFFFFFFFFFFFF⟩ : DownloadRange).length? = none ∧
      (⟨1, 0xFFFFFFFFFFFFFFFF⟩ : DownloadRange).isEmpty = false ∧
      Plan.downloadTotal? ⟨none, [], [⟨1, 0xFFFFFFFFFFFFFFFF⟩]⟩ = none := by
  decide

end Plan
end RangeSync
