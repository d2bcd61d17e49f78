import RangeSync.Progress.Sink
import RangeSync.Proofs.Percentages

/-!
# Log entries at steps

A download is logged whenever another step of so many percent is complete. The sink remembers the
greatest number of steps so far, and an update that exceeds it makes an entry; so the entries are
those of the updates that reach more steps than all before them
(`RangeSync.SteppedProgress.reached_foldl_lt_iff`), and there cannot be more entries than steps.

The steps are counted by a percentage that is rounded several times, and cut to an integer at the
end. The question is where that gives another number than the counts themselves do. To reach `n`
steps of `s` percent is to reach the percentage `n * s`, so it is asked for a single percentage at a
time: `RangeSync.ProgressUpdate.Settles` lists what settles it. A `2 ^ 51`th of the percentage is
always enough of a distance. With no distance at all, an exact percentage is read off a table
(`RangeSync.floor_hundredths`), and there it turns out that **29, 57 and 58 percent are computed to
be less than that**. Up to `2 ^ 44` bytes there is nothing in between, and these three are the only
exceptions (`RangeSync.SteppedProgress.stepsOf_eq_iff`).
-/

namespace RangeSync

open Numeric Magnitude

/-! ### Reaching a percentage -/

/-- **The percentages that rounding takes away**: of 29, 57 and 58 hundredths, the hundredfold is
computed to be less than that. -/
def slips : List Nat :=
  [29, 57, 58]

theorem slips_bounds : ∀ k ∈ slips, 0 < k ∧ k < 101 := by
  decide

/-- Of any other number of hundredths, the hundredfold is computed to be the number. -/
theorem floor_hundredths : ∀ k < 101, ((ofRatio k 100).mul (.ofNat 100)).floor =
    if k ∈ slips then k - 1 else k := by
  decide +kernel

theorem isShort_hundred : IsShort 100 :=
  isShort_of_lt (by decide)

namespace ProgressUpdate

variable {u : ProgressUpdate} {k : Nat}

/-- **It is settled whether an update has reached a percentage**, and rounding has no say: all bytes
are there, or they are away from the percentage by a `2 ^ 51`th of it, or they are exactly the
percentage of a number that is not rounded. -/
inductive Settles (u : ProgressUpdate) (k : Nat) : Prop
  | complete : u.completed = u.total → Settles u k
  | above : k * u.total.toNat * 2 ^ 51 + k * u.total.toNat ≤ 100 * u.completed.toNat * 2 ^ 51 →
      Settles u k
  | below : 100 * u.completed.toNat * 2 ^ 51 + k * u.total.toNat ≤ k * u.total.toNat * 2 ^ 51 →
      Settles u k
  | exact : 100 * u.completed.toNat = k * u.total.toNat → IsShort u.completed.toNat →
      IsShort u.total.toNat → k ∉ slips → Settles u k

/-- Up to `2 ^ 44` bytes, no count is rounded. -/
theorem IsPart.isShort_of_small (h : u.IsPart) (hsmall : u.total.toNat ≤ 2 ^ 44) :
    IsShort u.completed.toNat ∧ IsShort u.total.toNat :=
  ⟨isShort_of_lt (Nat.lt_of_le_of_lt (h.le.trans hsmall) (by decide)),
    isShort_of_lt (Nat.lt_of_le_of_lt hsmall (by decide))⟩

/-- **A settled percentage is computed to be reached exactly if it is.** -/
theorem Settles.le_iff (hsettled : u.Settles k) (h : u.IsPart) (hpos : 0 < k) (hk : k ≤ 100) :
    k ≤ u.parts 100 ↔ k * u.total.toNat ≤ 100 * u.completed.toNat := by
  have hshort : IsShort k := isShort_of_lt (Nat.lt_of_le_of_lt hk (by decide))
  have hpart : 0 < k * u.total.toNat := Nat.mul_pos hpos h.pos
  cases hsettled with
  | complete heq =>
    rw [parts_of_eq h (by rw [heq]) isShort_hundred, heq]
    exact iff_of_true hk (Nat.mul_le_mul_right _ hk)
  | above hclear =>
    refine iff_of_true (h.le_parts hshort isShort_hundred ?_) ?_
    · have hcast : ((k * u.total.toNat * 2 ^ 51 + k * u.total.toNat : ℕ) : ℚ) ≤
          (100 * u.completed.toNat * 2 ^ 51 : ℕ) := Nat.cast_le.mpr hclear
      push_cast [grain] at hcast ⊢
      linarith
    · generalize k * u.total.toNat = part at hclear ⊢
      omega
  | below hclear =>
    refine iff_of_false (Nat.not_le.mpr (h.parts_lt hpos isShort_hundred ?_)) ?_
    · have hcast : ((100 * u.completed.toNat * 2 ^ 51 + k * u.total.toNat : ℕ) : ℚ) ≤
          (k * u.total.toNat * 2 ^ 51 : ℕ) := Nat.cast_le.mpr hclear
      push_cast [grain] at hcast ⊢
      linarith
    · generalize k * u.total.toNat = part at hclear hpart ⊢
      omega
  | exact hexact hcompleted htotal hslip =>
    rw [h.parts_of_exact hcompleted htotal (by decide) hexact,
      floor_hundredths k (Nat.lt_succ_of_le hk), if_neg hslip]
    exact iff_of_true le_rfl hexact.ge

/-- Of up to `2 ^ 44` bytes, every percentage is settled but the exact ones that slip. -/
theorem IsPart.settles_of_small (h : u.IsPart) (hsmall : u.total.toNat ≤ 2 ^ 44) (hk : k ≤ 100)
    (hslip : 100 * u.completed.toNat = k * u.total.toNat → k ∉ slips) : u.Settles k := by
  have hpart : k * u.total.toNat ≤ 100 * 2 ^ 44 := Nat.mul_le_mul hk hsmall
  rcases Nat.lt_trichotomy (100 * u.completed.toNat) (k * u.total.toNat) with hlt | heq | hgt
  · refine .below ?_
    generalize k * u.total.toNat = part at hlt hpart ⊢
    omega
  · obtain ⟨hcompleted, htotal⟩ := h.isShort_of_small hsmall
    exact .exact heq hcompleted htotal (hslip heq)
  · refine .above ?_
    generalize k * u.total.toNat = part at hgt hpart ⊢
    omega

end ProgressUpdate

namespace SteppedProgress

variable {u : ProgressUpdate} {updates : List ProgressUpdate} {p : SteppedProgress} {s n : Nat}

/-! ### Steps -/

/-- **The whole steps of so many percent** that an update has reached, computed exactly. -/
def exactSteps (s : Nat) (u : ProgressUpdate) : Nat :=
  100 * u.completed.toNat / (u.total.toNat * s)

/-- Every multiple of the step is settled. -/
def Settles (s : Nat) (u : ProgressUpdate) : Prop :=
  ∀ k, 0 < k → k ≤ 100 → s ∣ k → u.Settles k

theorem settles_of_small (h : u.IsPart) (hsmall : u.total.toNat ≤ 2 ^ 44)
    (hslip : ∀ k ∈ slips, s ∣ k → 100 * u.completed.toNat ≠ k * u.total.toNat) : Settles s u :=
  fun k _ hk hdvd => h.settles_of_small hsmall hk fun heq hmem => hslip k hmem hdvd heq

theorem le_exactSteps_iff (hs : 1 ≤ s) (h : u.IsPart) :
    n ≤ exactSteps s u ↔ n * s * u.total.toNat ≤ 100 * u.completed.toNat := by
  rw [exactSteps, Nat.le_div_iff_mul_le (Nat.mul_pos h.pos hs), Nat.mul_comm _ s,
    ← Nat.mul_assoc]

theorem stepsOf_eq_parts (hs : 1 ≤ s) (hs' : s ≤ 100) (u : ProgressUpdate) :
    (every s).stepsOf u = u.parts 100 / s := by
  rw [stepsOf, ProgressUpdate.floor_percent, every, Nat.min_eq_left hs', Nat.max_eq_right hs]

/-- **The steps are the exact ones**, if rounding has no say. -/
theorem stepsOf_eq (hs : 1 ≤ s) (hs' : s ≤ 100) (h : u.IsPart) (hsettled : Settles s u) :
    (every s).stepsOf u = exactSteps s u := by
  refine eq_of_forall_le_iff fun n => ?_
  rw [stepsOf_eq_parts hs hs', Nat.le_div_iff_mul_le hs, le_exactSteps_iff hs h]
  rcases Nat.eq_zero_or_pos (n * s) with hzero | hpos
  · simp [hzero]
  rcases Nat.lt_or_ge 100 (n * s) with hlt | hge
  · -- more than all is neither computed nor there
    refine iff_of_false (Nat.not_le.mpr (Nat.lt_of_le_of_lt
      (ProgressUpdate.parts_le h isShort_hundred) hlt)) (Nat.not_le.mpr ?_)
    exact Nat.lt_of_le_of_lt (Nat.mul_le_mul_left 100 h.le) (Nat.mul_lt_mul_of_pos_right hlt h.pos)
  · exact (hsettled _ hpos hge (Nat.dvd_mul_left s n)).le_iff h hpos hge

/-- **Of up to `2 ^ 44` bytes, the steps are the exact ones but for three percentages.** -/
theorem stepsOf_eq_iff (hs : 1 ≤ s) (hs' : s ≤ 100) (h : u.IsPart)
    (hsmall : u.total.toNat ≤ 2 ^ 44) :
    (every s).stepsOf u = exactSteps s u ↔
      ∀ k ∈ slips, s ∣ k → 100 * u.completed.toNat ≠ k * u.total.toNat := by
  constructor
  · rintro heq k hslip ⟨m, rfl⟩ hexact
    have hsome : 0 < s * m ∧ s * m < 101 := slips_bounds _ hslip
    obtain ⟨hcompleted, htotal⟩ := h.isShort_of_small hsmall
    -- as many steps are there, but one percent too little is computed
    have hreached : m ≤ exactSteps s u :=
      (le_exactSteps_iff hs h).mpr (by rw [Nat.mul_comm m, hexact])
    rw [← heq, stepsOf_eq_parts hs hs', Nat.le_div_iff_mul_le hs,
      h.parts_of_exact hcompleted htotal (by decide) hexact, floor_hundredths _ hsome.2,
      if_pos hslip, Nat.mul_comm] at hreached
    omega
  · exact fun hslip => stepsOf_eq hs hs' h (settles_of_small h hsmall hslip)

/-! ### Entries -/

theorem receive_step (p : SteppedProgress) (u : ProgressUpdate) :
    (p.receive u).step = p.step := by
  unfold receive
  split <;> rfl

theorem receive_reached (p : SteppedProgress) (u : ProgressUpdate) :
    (p.receive u).reached = max p.reached (p.stepsOf u) := by
  unfold receive
  split
  · rename_i h
    exact (Nat.max_eq_right h.le).symm
  · rename_i h
    exact (Nat.max_eq_left (Nat.not_lt.mp h)).symm

theorem receive_entries (p : SteppedProgress) (u : ProgressUpdate) :
    (p.receive u).entries =
      p.entries ++ if p.reached < p.stepsOf u then [entry u] else [] := by
  unfold receive
  split <;> simp

theorem stepsOf_receive (p : SteppedProgress) (u v : ProgressUpdate) :
    (p.receive u).stepsOf v = p.stepsOf v := by
  rw [stepsOf, stepsOf, receive_step]

theorem stepsOf_foldl (p : SteppedProgress) (updates : List ProgressUpdate) (v : ProgressUpdate) :
    (updates.foldl receive p).stepsOf v = p.stepsOf v := by
  induction updates generalizing p with
  | nil => rfl
  | cons u rest ih => rw [List.foldl_cons, ih, stepsOf_receive]

/-- **What is kept of the updates is the greatest number of steps**: what exceeds it exceeds the
steps of each of them. -/
theorem reached_foldl_lt_iff (p : SteppedProgress) (updates : List ProgressUpdate) :
    (updates.foldl receive p).reached < n ↔
      p.reached < n ∧ ∀ u ∈ updates, p.stepsOf u < n := by
  induction updates generalizing p with
  | nil => simp
  | cons u rest ih =>
    rw [List.foldl_cons, ih, receive_reached, max_lt_iff, List.forall_mem_cons, and_assoc]
    simp only [stepsOf_receive]

/-- An entry is not made without another step. -/
theorem length_entries_foldl_le (h : p.entries.length ≤ p.reached)
    (updates : List ProgressUpdate) :
    (updates.foldl receive p).entries.length ≤ (updates.foldl receive p).reached := by
  induction updates generalizing p with
  | nil => exact h
  | cons u rest ih =>
    refine ih ?_
    rw [receive_entries, receive_reached, List.length_append]
    split <;> simp <;> omega

/-- **An entry is made at exactly the updates that reach another step**, and so there are no more
of them than steps. An update counts by its exact steps if rounding has no say in them, and in those
of the updates before it; of up to `2 ^ 44` bytes, it has a say in three percentages only. -/
theorem logs_each_step (hs : 1 ≤ s) (hs' : s ≤ 100) (hparts : ∀ u ∈ updates, u.IsPart) :
    (∀ before u after, updates = before ++ u :: after → (∀ v ∈ before ++ [u], Settles s v) →
      ((before ++ [u]).foldl receive (every s)).entries =
        (before.foldl receive (every s)).entries ++
          if 0 < exactSteps s u ∧ ∀ b ∈ before, exactSteps s b < exactSteps s u then [entry u]
          else []) ∧
    (updates.foldl receive (every s)).entries.length ≤ 100 / s ∧
    ∀ u ∈ updates, u.total.toNat ≤ 2 ^ 44 → ((every s).stepsOf u = exactSteps s u ↔
      ∀ k ∈ slips, s ∣ k → 100 * u.completed.toNat ≠ k * u.total.toNat) := by
  refine ⟨?_, ?_, fun u hu hsmall => stepsOf_eq_iff hs hs' (hparts u hu) hsmall⟩
  · rintro before u after rfl hsettled
    have hexact : ∀ v ∈ before ++ [u], (every s).stepsOf v = exactSteps s v := fun v hv =>
      stepsOf_eq hs hs' (hparts v (by simp at hv ⊢; tauto)) (hsettled v hv)
    have hbefore : ∀ b ∈ before, (every s).stepsOf b = exactSteps s b := fun b hb =>
      hexact b (List.mem_append_left _ hb)
    rw [List.foldl_append, List.foldl_cons, List.foldl_nil, receive_entries, stepsOf_foldl,
      hexact u (by simp)]
    refine congrArg _ (if_congr ((reached_foldl_lt_iff _ _).trans (and_congr_right' ?_)) rfl rfl)
    exact forall₂_congr fun b hb => by rw [hbefore b hb]
  · have hentries := length_entries_foldl_le (p := every s) (Nat.zero_le 0) updates
    refine hentries.trans (Nat.lt_succ_iff.mp ?_)
    refine (reached_foldl_lt_iff _ _).mpr ⟨Nat.succ_pos _, fun u hu => Nat.lt_succ_of_le ?_⟩
    rw [stepsOf_eq_parts hs hs']
    exact Nat.div_le_div_right
      (ProgressUpdate.parts_le (hparts u hu) isShort_hundred)

/-- So many of a hundred bytes. -/
def ofHundred (count : UInt64) : ProgressUpdate :=
  ⟨"f", 100, count, 1⟩

theorem isPart_ofHundred {count : UInt64} (h : count.toNat ≤ 100) : (ofHundred count).IsPart :=
  ⟨show 0 < (100 : UInt64).toNat by decide, h⟩

/-- The twenty-fifth of a hundred bytes is logged where every quarter is to be. -/
theorem logs_each_step_quarters :
    (∀ u ∈ [ofHundred 24, ofHundred 25], u.IsPart ∧ Settles 25 u) ∧
    ([ofHundred 24, ofHundred 25].foldl receive (every 25)).entries =
      ([ofHundred 24].foldl receive (every 25)).entries ++ [entry (ofHundred 25)] := by
  have hparts : ∀ u ∈ [ofHundred 24, ofHundred 25], u.IsPart := by
    simp only [List.forall_mem_cons]
    exact ⟨isPart_ofHundred (by decide), isPart_ofHundred (by decide), by simp⟩
  have hsettled (count : UInt64) (h : count.toNat ≤ 100) : Settles 25 (ofHundred count) :=
    settles_of_small (isPart_ofHundred h) (show (100 : UInt64).toNat ≤ 2 ^ 44 by decide)
      fun k hk hdvd => absurd hdvd ((show ∀ k ∈ slips, ¬ 25 ∣ k by decide) k hk)
  have hsettled : ∀ u ∈ [ofHundred 24, ofHundred 25], Settles 25 u := by
    simp only [List.forall_mem_cons]
    exact ⟨hsettled 24 (by decide), hsettled 25 (by decide), by simp⟩
  have hentries := (logs_each_step (s := 25) (by decide) (by decide) hparts).1 [ofHundred 24]
    (ofHundred 25) [] rfl hsettled
  rw [if_pos (by decide)] at hentries
  exact ⟨fun u hu => ⟨hparts u hu, hsettled u hu⟩, hentries⟩

/-- **The byte that makes 29 of a hundred is not logged**, where every percent is to be. -/
theorem twenty_ninth_is_not_logged :
    (ofHundred 28).IsPart ∧ (ofHundred 29).IsPart ∧ 0 < exactSteps 1 (ofHundred 29) ∧
    (∀ b ∈ [ofHundred 28], exactSteps 1 b < exactSteps 1 (ofHundred 29)) ∧
    ([ofHundred 28, ofHundred 29].foldl receive (every 1)).entries =
      ([ofHundred 28].foldl receive (every 1)).entries :=
  ⟨isPart_ofHundred (by decide), isPart_ofHundred (by decide), by decide, by decide,
    by decide +kernel⟩

end SteppedProgress
end RangeSync
