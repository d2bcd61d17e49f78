import RangeSync.Progress.Update
import RangeSync.Proofs.Nearest

/-!
# Percentages

The fraction of a download that is there is computed with three roundings, of either count and of
their quotient, and a fourth one follows when it is multiplied by 100 or by 1000 before the number
is cut to an integer. `RangeSync.ProgressUpdate.parts` is that last number for any scale, and all
that is proved about percentages and about thousandths is proved about it.

Rounding keeps the order, so the number of parts never decreases while bytes arrive
(`RangeSync.ProgressUpdate.parts_mono`), and it is never above the scale
(`RangeSync.ProgressUpdate.parts_le`). Where the exact quotient is clearly above or below a number
of parts, the four roundings together are not enough to hide it
(`RangeSync.ProgressUpdate.IsPart.le_parts`, `RangeSync.ProgressUpdate.IsPart.parts_lt`). That
leaves two places to look at:

* at an exact number of parts the counts cancel, and what remains is a table over the scale
  (`RangeSync.ProgressUpdate.IsPart.parts_of_exact`);
* at the end, all thousandths are there exactly if the two counts were rounded to the same double
  (`RangeSync.ProgressUpdate.IsPart.permille_eq_iff`), since two different doubles are too far
  apart for a quotient of 0.9999….
-/

namespace RangeSync

open Numeric Magnitude

/-- **An update about a part**: there are bytes to expect, and no more than these are there. -/
structure ProgressUpdate.IsPart (u : ProgressUpdate) : Prop where
  pos : 0 < u.total.toNat
  le : u.completed.toNat ≤ u.total.toNat

namespace ProgressUpdate

variable {u v : ProgressUpdate} {k scale : Nat}

/-! ### The fraction -/

theorem IsPart.total_pos (h : u.IsPart) : 0 < nearest u.total.toNat :=
  lt_of_lt_of_le one_pos (one_le_nearest h.pos)

theorem nearest_toNat_le (n : UInt64) : nearest n.toNat ≤ 2 ^ (64 : ℤ) := by
  have hlt : (n.toNat : ℚ) ≤ (twoTo 64 : ℕ) := by exact_mod_cast n.toNat_lt.le
  have hmono := nearest_mono (Nat.cast_nonneg _) hlt
  rwa [nearest_natCast ⟨1, 64, by decide, (Nat.one_mul _).symm⟩, cast_twoTo] at hmono

/-- The counts are rounded in their order. -/
theorem IsPart.nearest_le (h : u.IsPart) :
    nearest u.completed.toNat ≤ nearest u.total.toNat :=
  nearest_mono (Nat.cast_nonneg _) (Nat.cast_le.mpr h.le)

theorem IsPart.ratio_le_one (h : u.IsPart) :
    nearest u.completed.toNat / nearest u.total.toNat ≤ 1 :=
  (div_le_one h.total_pos).mpr h.nearest_le

/-- **The quotient of the rounded counts, rounded**; no more than one has to be cut off. -/
theorem value_fraction (h : u.IsPart) :
    u.fraction.value = nearest (nearest u.completed.toNat / nearest u.total.toNat) := by
  have hnonzero : u.total ≠ 0 := by
    intro hzero
    exact absurd h.pos (by rw [hzero]; decide)
  have hquotient := value_div (ofNat u.completed.toNat) (num_ofNat_pos h.pos)
  rw [value_ofNat, value_ofNat] at hquotient
  rw [fraction, if_neg hnonzero, value_min_of_le, hquotient]
  rw [hquotient, value_ofNat]
  exact nearest_mono (div_nonneg (nearest_nonneg _) (nearest_nonneg _))
    (by rw [Nat.cast_one]; exact h.ratio_le_one)

theorem fraction_mono (hu : u.IsPart) (hv : v.IsPart) (htotal : u.total = v.total)
    (h : u.completed ≤ v.completed) : u.fraction.value ≤ v.fraction.value := by
  rw [value_fraction hu, value_fraction hv, htotal]
  have hcount : nearest u.completed.toNat ≤ nearest v.completed.toNat :=
    nearest_mono (Nat.cast_nonneg _) (Nat.cast_le.mpr h)
  exact nearest_mono (div_nonneg (nearest_nonneg _) (nearest_nonneg _))
    (div_le_div_of_nonneg_right hcount hv.total_pos.le)

theorem fraction_of_eq (h : u.IsPart) (heq : nearest u.completed.toNat = nearest u.total.toNat) :
    u.fraction.value = 1 := by
  rw [value_fraction h, heq, div_self h.total_pos.ne', nearest_one]

theorem fraction_le_one (h : u.IsPart) : u.fraction.value ≤ 1 := by
  rw [value_fraction h, ← nearest_one]
  exact nearest_mono (div_nonneg (nearest_nonneg _) (nearest_nonneg _)) h.ratio_le_one

/-! ### How far the fraction is off -/

/-- There are less than `2 ^ 64` bytes, so that even one of them is not a tiny part. -/
theorem IsPart.le_ratio (h : u.IsPart) (hpos : 0 < u.completed.toNat) :
    2 ^ (-64 : ℤ) ≤ nearest u.completed.toNat / nearest u.total.toNat := by
  rw [le_div_iff₀ h.total_pos, zpow_neg]
  calc (2 ^ (64 : ℤ))⁻¹ * nearest u.total.toNat ≤ (2 ^ (64 : ℤ))⁻¹ * 2 ^ (64 : ℤ) := by
        gcongr
        exact nearest_toNat_le _
    _ = 1 := by norm_num
    _ ≤ nearest u.completed.toNat := one_le_nearest hpos

theorem IsPart.isOrdinary_ratio (h : u.IsPart) :
    IsOrdinary (nearest u.completed.toNat / nearest u.total.toNat) := by
  rcases Nat.eq_zero_or_pos u.completed.toNat with hzero | hpos
  · rw [hzero, Nat.cast_zero, nearest_zero, zero_div]
    exact Or.inl rfl
  · exact Or.inr ((zpow_le_zpow_right₀ one_le_two (by norm_num)).trans (h.le_ratio hpos))

/-- The fraction is far from tiny numbers, too. -/
theorem IsPart.isOrdinary_fraction_mul (h : u.IsPart) (scale : Nat) :
    IsOrdinary (u.fraction.value * scale) := by
  rcases Nat.eq_zero_or_pos scale with rfl | hscale
  · exact Or.inl (by rw [Nat.cast_zero, mul_zero])
  rcases Nat.eq_zero_or_pos u.completed.toNat with hzero | hpos
  · exact Or.inl (by rw [value_fraction h, hzero, Nat.cast_zero, nearest_zero, zero_div,
      nearest_zero, zero_mul])
  have hone : (1 : ℚ) ≤ scale := by exact_mod_cast hscale
  refine Or.inr ?_
  calc (2 : ℚ) ^ (-1000 : ℤ) ≤ 2 ^ (-65 : ℤ) := zpow_le_zpow_right₀ one_le_two (by norm_num)
    _ ≤ 2 ^ (-64 : ℤ) * (1 - grain) := by norm_num [grain]
    _ ≤ nearest u.completed.toNat / nearest u.total.toNat * (1 - grain) := by
        gcongr
        · norm_num [grain]
        · exact h.le_ratio hpos
    _ ≤ u.fraction.value := by
        rw [value_fraction h]
        exact le_nearest h.isOrdinary_ratio
    _ ≤ u.fraction.value * scale := le_mul_of_one_le_right (value_nonneg _) hone

/-- **The fraction is not much more than the quotient of the counts**, -/
theorem IsPart.fraction_mul_le (h : u.IsPart) :
    u.fraction.value * (u.total.toNat * (1 - grain)) ≤ u.completed.toNat * (1 + grain) ^ 2 := by
  have hpos := h.total_pos
  calc u.fraction.value * (u.total.toNat * (1 - grain))
      ≤ u.fraction.value * nearest u.total.toNat :=
        mul_le_mul_of_nonneg_left (le_nearest (.of_natCast _)) (value_nonneg _)
    _ ≤ nearest u.completed.toNat / nearest u.total.toNat * (1 + grain) *
          nearest u.total.toNat := by
        rw [value_fraction h]
        gcongr
        exact Magnitude.nearest_le h.isOrdinary_ratio
    _ = nearest u.completed.toNat * (1 + grain) := by field_simp
    _ ≤ u.completed.toNat * (1 + grain) * (1 + grain) := by
        gcongr
        · norm_num [grain]
        · exact Magnitude.nearest_le (.of_natCast _)
    _ = u.completed.toNat * (1 + grain) ^ 2 := by ring

/-- and not much less. -/
theorem IsPart.le_fraction_mul (h : u.IsPart) :
    u.completed.toNat * (1 - grain) ^ 2 ≤ u.fraction.value * (u.total.toNat * (1 + grain)) := by
  have hpos := h.total_pos
  have hgrain : (0 : ℚ) ≤ 1 - grain := by norm_num [grain]
  calc (u.completed.toNat : ℚ) * (1 - grain) ^ 2
      = u.completed.toNat * (1 - grain) * (1 - grain) := by ring
    _ ≤ nearest u.completed.toNat * (1 - grain) := by
        gcongr
        exact le_nearest (.of_natCast _)
    _ = nearest u.completed.toNat / nearest u.total.toNat * (1 - grain) *
          nearest u.total.toNat := by field_simp
    _ ≤ u.fraction.value * nearest u.total.toNat := by
        rw [value_fraction h]
        gcongr
        exact le_nearest h.isOrdinary_ratio
    _ ≤ u.fraction.value * (u.total.toNat * (1 + grain)) :=
        mul_le_mul_of_nonneg_left (Magnitude.nearest_le (.of_natCast _)) (value_nonneg _)

/-! ### Parts of it -/

/-- Of so many equal parts of the expected bytes, the number that are there, as it is computed. -/
def parts (u : ProgressUpdate) (scale : Nat) : Nat :=
  (u.fraction.mul (.ofNat scale)).floor

theorem permille_eq_parts (u : ProgressUpdate) : u.permille = u.parts 1000 := rfl

theorem floor_percent (u : ProgressUpdate) : u.percent.floor = u.parts 100 := rfl

theorem le_parts_iff (hscale : IsShort scale) :
    k ≤ u.parts scale ↔ (k : ℚ) ≤ nearest (u.fraction.value * scale) := by
  rw [parts, le_floor_iff, value_mul, value_ofNat, nearest_natCast hscale]

theorem parts_mono (hu : u.IsPart) (hv : v.IsPart) (htotal : u.total = v.total)
    (h : u.completed ≤ v.completed) (hscale : IsShort scale) :
    u.parts scale ≤ v.parts scale := by
  rw [le_parts_iff hscale]
  refine ((le_parts_iff hscale).mp le_rfl).trans
    (nearest_mono (mul_nonneg (value_nonneg _) (Nat.cast_nonneg _)) ?_)
  gcongr
  exact fraction_mono hu hv htotal h

/-- A number of parts is there if the rounded fraction says so. -/
theorem le_parts_of_le (hk : IsShort k) (hscale : IsShort scale)
    (h : k ≤ u.fraction.value * scale) : k ≤ u.parts scale := by
  rw [le_parts_iff hscale, ← nearest_natCast hk]
  exact nearest_mono (Nat.cast_nonneg _) h

theorem parts_le (h : u.IsPart) (hscale : IsShort scale) : u.parts scale ≤ scale := by
  have hparts := (le_parts_iff hscale).mp (le_refl (u.parts scale))
  have hle := nearest_mono (mul_nonneg (value_nonneg _) (Nat.cast_nonneg _))
    (mul_le_of_le_one_left (Nat.cast_nonneg scale) (fraction_le_one h))
  rw [nearest_natCast hscale] at hle
  exact_mod_cast hparts.trans hle

theorem parts_of_eq (h : u.IsPart) (heq : nearest u.completed.toNat = nearest u.total.toNat)
    (hscale : IsShort scale) : u.parts scale = scale := by
  refine Nat.le_antisymm (parts_le h hscale) (le_parts_of_le hscale hscale ?_)
  rw [fraction_of_eq h heq, one_mul]

/-! ### Away from a number of parts -/

/-- **Where the exact quotient exceeds a number of parts by a few grains**, the computed one
reaches it, -/
theorem IsPart.le_parts (h : u.IsPart) (hk : IsShort k) (hscale : IsShort scale)
    (hclear : (k * u.total.toNat : ℚ) * (1 + 4 * grain) ≤ scale * u.completed.toNat) :
    k ≤ u.parts scale := by
  have htotal : (0 : ℚ) < u.total.toNat := by exact_mod_cast h.pos
  refine le_parts_of_le hk hscale (le_of_mul_le_mul_right ?_
    (show (0 : ℚ) < u.total.toNat * (1 + grain) from
      mul_pos htotal (by norm_num [grain])))
  calc (k : ℚ) * (u.total.toNat * (1 + grain))
      = k * u.total.toNat * (1 + grain) := by ring
    _ ≤ k * u.total.toNat * ((1 + 4 * grain) * (1 - grain) ^ 2) := by
        gcongr
        norm_num [grain]
    _ = k * u.total.toNat * (1 + 4 * grain) * (1 - grain) ^ 2 := by ring
    _ ≤ scale * u.completed.toNat * (1 - grain) ^ 2 := by gcongr
    _ = scale * (u.completed.toNat * (1 - grain) ^ 2) := by ring
    _ ≤ scale * (u.fraction.value * (u.total.toNat * (1 + grain))) := by
        gcongr ?_ * ?_
        exact h.le_fraction_mul
    _ = u.fraction.value * scale * (u.total.toNat * (1 + grain)) := by ring

/-- and where it falls short by a few grains, the computed one does not. -/
theorem IsPart.parts_lt (h : u.IsPart) (hpos : 0 < k) (hscale : IsShort scale)
    (hclear : (scale * u.completed.toNat : ℚ) ≤ k * u.total.toNat * (1 - 4 * grain)) :
    u.parts scale < k := by
  have htotal : (0 : ℚ) < u.total.toNat := by exact_mod_cast h.pos
  have hk : (0 : ℚ) < k := by exact_mod_cast hpos
  have hgrain : (0 : ℚ) < 1 - grain := by norm_num [grain]
  rw [← Nat.not_le, le_parts_iff hscale, not_le]
  refine lt_of_le_of_lt (Magnitude.nearest_le (h.isOrdinary_fraction_mul scale))
    (lt_of_mul_lt_mul_right ?_ (mul_pos htotal hgrain).le)
  calc u.fraction.value * scale * (1 + grain) * (u.total.toNat * (1 - grain))
      = scale * (u.fraction.value * (u.total.toNat * (1 - grain))) * (1 + grain) := by ring
    _ ≤ scale * (u.completed.toNat * (1 + grain) ^ 2) * (1 + grain) := by
        gcongr ?_ * ?_ * _
        · norm_num [grain]
        · exact h.fraction_mul_le
    _ = scale * u.completed.toNat * (1 + grain) ^ 3 := by ring
    _ ≤ k * u.total.toNat * (1 - 4 * grain) * (1 + grain) ^ 3 := by
        gcongr
        norm_num [grain]
    _ = k * u.total.toNat * ((1 - 4 * grain) * (1 + grain) ^ 3) := by ring
    _ < k * u.total.toNat * (1 - grain) := by
        gcongr
        norm_num [grain]
    _ = k * (u.total.toNat * (1 - grain)) := by ring

/-! ### At a number of parts -/

/-- The number of parts depends only on the fraction. -/
theorem parts_eq_of_value {x : Magnitude} (h : u.fraction.value = x.value) :
    u.parts scale = (x.mul (.ofNat scale)).floor := by
  have hproduct : (u.fraction.mul (.ofNat scale)).value = (x.mul (.ofNat scale)).value := by
    rw [value_mul, value_mul, h]
  exact Nat.le_antisymm (floor_mono hproduct.le) (floor_mono hproduct.ge)

/-- **At an exact number of parts the counts do not matter**, if neither of them is rounded. -/
theorem IsPart.parts_of_exact (h : u.IsPart) (hcompleted : IsShort u.completed.toNat)
    (htotal : IsShort u.total.toNat) (hscale : 0 < scale)
    (hexact : scale * u.completed.toNat = k * u.total.toNat) :
    u.parts scale = ((ofRatio k scale).mul (.ofNat scale)).floor := by
  refine parts_eq_of_value ?_
  have hscale : (scale : ℚ) ≠ 0 := Nat.cast_ne_zero.mpr hscale.ne'
  have hpos : (u.total.toNat : ℚ) ≠ 0 := Nat.cast_ne_zero.mpr h.pos.ne'
  have hratio : (u.completed.toNat : ℚ) / u.total.toNat = k / scale := by
    rw [div_eq_div_iff hpos hscale]
    have hcast : (scale * u.completed.toNat : ℚ) = k * u.total.toNat := by exact_mod_cast hexact
    rw [← hcast, mul_comm]
  rw [value_fraction h, nearest_natCast hcompleted, nearest_natCast htotal, hratio,
    value_ofRatio_eq_nearest]
  exact Nat.pos_of_ne_zero (Nat.cast_ne_zero.mp hscale)

/-- A fraction whose rounded counts differ is at most this one, which is next to 1. -/
theorem IsPart.fraction_le_of_ne (h : u.IsPart)
    (hne : nearest u.completed.toNat ≠ nearest u.total.toNat) :
    u.fraction.value ≤ (ofRatio (2 * leadingBit) (2 * leadingBit + 1)).value := by
  obtain ⟨n, hn, hcompleted, -⟩ := exists_short_nearest u.completed.toNat
  obtain ⟨m, hm, htotal, -⟩ := exists_short_nearest u.total.toNat
  have hlt : (n : ℚ) < m := by
    rw [← hcompleted, ← htotal]
    exact lt_of_le_of_ne h.nearest_le hne
  have hgap : (((2 * leadingBit + 1) * n : ℕ) : ℚ) ≤ (2 * leadingBit * m : ℕ) :=
    Nat.cast_le.mpr (hn.lt_gap hm (Nat.cast_lt.mp hlt)).le
  rw [value_fraction h, value_ofRatio_eq_nearest _ (Nat.succ_pos _), hcompleted, htotal]
  refine nearest_mono (div_nonneg (Nat.cast_nonneg n) (Nat.cast_nonneg m)) ?_
  rw [div_le_div_iff₀ (lt_of_le_of_lt (Nat.cast_nonneg n) hlt) (Nat.cast_pos.mpr (Nat.succ_pos _)),
    mul_comm]
  exact_mod_cast hgap

/-- **The thousandths are all there exactly if the counts are rounded to the same number.** -/
theorem IsPart.permille_eq_iff (h : u.IsPart) :
    u.permille = 1000 ↔ nearest u.completed.toNat = nearest u.total.toNat := by
  have hscale : IsShort 1000 := isShort_of_lt (by decide)
  rw [permille_eq_parts]
  refine ⟨fun hfull => ?_, fun heq => parts_of_eq h heq hscale⟩
  by_contra hne
  have hle := floor_mono (x := u.fraction.mul (.ofNat 1000))
    (y := (ofRatio (2 * leadingBit) (2 * leadingBit + 1)).mul (.ofNat 1000)) (by
      rw [value_mul, value_mul]
      refine nearest_mono (mul_nonneg (value_nonneg _) (value_nonneg _)) ?_
      gcongr
      · exact value_nonneg _
      · exact h.fraction_le_of_ne hne)
  have hbelow : ((ofRatio (2 * leadingBit) (2 * leadingBit + 1)).mul (.ofNat 1000)).floor =
      999 := by decide +kernel
  rw [hbelow] at hle
  exact absurd (hfull ▸ hle : 1000 ≤ 999) (by decide)

end ProgressUpdate
end RangeSync
