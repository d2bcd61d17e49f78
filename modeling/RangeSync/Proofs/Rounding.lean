import Mathlib.Algebra.Order.Field.Power
import Mathlib.Data.Int.Log
import Mathlib.Data.Rat.Floor
import Mathlib.Tactic.FieldSimp
import Mathlib.Tactic.Linarith
import Mathlib.Tactic.NormNum
import Mathlib.Tactic.Positivity
import Mathlib.Tactic.Ring
import RangeSync.Numeric.Decimal

/-!
# What rounding to a magnitude does

A magnitude is computed on natural numbers, with every power of two on one side of a fraction or on
the other, so that nothing is divided before the one division that rounds. What the computation
means is easier to say of rational numbers: a ratio is divided by a power of two, and rounded to a
nearest integer (`RangeSync.Numeric.Magnitude.value_ofRatio`). The power is the one that leaves 53
bits before the point, which the lengths of numerator and denominator settle only up to one; the
comparison that the computation makes settles the rest (`RangeSync.Numeric.Magnitude.exponentOf_eq`).

Two questions are asked of a rounded number here. Whether it is still the same one: that is so for
the natural numbers of 53 bits, whatever zeros follow
(`RangeSync.Numeric.Magnitude.value_ofRatio_of_isShort`), and any other natural number becomes one of
these (`RangeSync.Numeric.Magnitude.exists_short`). And whether it is a double at all: that ends
half a step above the greatest double, and the very middle is rounded up, since the integer above it
is even (`RangeSync.Numeric.Magnitude.fits_ofRatio_iff`).
-/

namespace RangeSync.Numeric

variable {num den n m : Nat} {e : ℤ}

/-! ### Powers of two on both sides of a fraction -/

theorem cast_twoTo (n : Nat) : (twoTo n : ℚ) = 2 ^ n := by
  rw [twoTo, Nat.pow_eq, Nat.cast_pow, Nat.cast_ofNat]

/-- Of the two powers that an exponent is split into, one is 1. -/
theorem twoTo_div_twoTo (e : ℤ) : (twoTo e.toNat : ℚ) / twoTo (-e).toNat = 2 ^ e := by
  rw [cast_twoTo, cast_twoTo, ← zpow_natCast, ← zpow_natCast, ← zpow_sub₀ (by norm_num)]
  congr 1
  omega

/-- A fraction is scaled by a power of two by scaling its numerator or its denominator. -/
theorem scaled_div (num den : Nat) (e : ℤ) :
    ((num * twoTo (-e).toNat : ℕ) : ℚ) / (den * twoTo e.toNat : ℕ) = num / den / 2 ^ e := by
  rw [← twoTo_div_twoTo, Nat.cast_mul, Nat.cast_mul]
  have h (k : Nat) : (twoTo k : ℚ) ≠ 0 := Nat.cast_ne_zero.mpr (Nat.ne_of_gt (twoTo_pos k))
  have h₁ := h e.toNat
  have h₂ := h (-e).toNat
  field_simp

/-! ### Quotients -/

/-- Half a step on each side of what a quotient is rounded to; at the ends it is even. -/
theorem divNearestEven_spec (num : Nat) (hden : 0 < den) :
    2 * num ≤ (2 * divNearestEven num den + 1) * den ∧
    2 * divNearestEven num den * den ≤ 2 * num + den ∧
    (2 * num = (2 * divNearestEven num den + 1) * den ∨
      2 * divNearestEven num den * den = 2 * num + den → divNearestEven num den % 2 = 0) := by
  have hsplit := Nat.div_add_mod num den
  have hrest := Nat.mod_lt num hden
  unfold divNearestEven
  dsimp only
  generalize num / den = quotient at hsplit ⊢
  generalize num % den = rest at hsplit hrest ⊢
  subst hsplit
  have hstep (k : Nat) : (2 * k + 1) * den = 2 * (den * k) + den := by ring
  have hwhole (k : Nat) : 2 * k * den = 2 * (den * k) := by ring
  rw [hstep, hwhole]
  have hnext : den * (quotient + 1) = den * quotient + den := by ring
  split
  · omega
  · split
    · rw [hnext]
      omega
    · rcases Nat.mod_two_eq_zero_or_one quotient with heven | hodd
      · rw [heven, Nat.add_zero]
        omega
      · rw [hodd, hnext]
        omega

/-- **A quotient is rounded to a nearest number**, -/
theorem abs_divNearestEven_sub_le (num : Nat) (hden : 0 < den) :
    |(divNearestEven num den : ℚ) - num / den| ≤ 1 / 2 := by
  obtain ⟨hlow, hhigh, _⟩ := divNearestEven_spec num hden
  have hd : (0 : ℚ) < den := Nat.cast_pos.mpr hden
  have hlow : (2 : ℚ) * num ≤ (2 * divNearestEven num den + 1) * den := by exact_mod_cast hlow
  have hhigh : (2 : ℚ) * divNearestEven num den * den ≤ 2 * num + den := by exact_mod_cast hhigh
  rw [abs_le]
  constructor
  · have : (num : ℚ) / den ≤ divNearestEven num den + 1 / 2 := by
      rw [div_le_iff₀ hd]
      linarith
    linarith
  · have : (divNearestEven num den : ℚ) - 1 / 2 ≤ num / den := by
      rw [le_div_iff₀ hd]
      linarith
    linarith

/-- and of two nearest numbers to the even one. -/
theorem divNearestEven_mod_two (hden : 0 < den)
    (h : (num : ℚ) / den = divNearestEven num den + 1 / 2) : divNearestEven num den % 2 = 0 := by
  refine (divNearestEven_spec num hden).2.2 (Or.inl ?_)
  have hd : (den : ℚ) ≠ 0 := Nat.cast_ne_zero.mpr (Nat.ne_of_gt hden)
  rw [div_eq_iff hd] at h
  have : (2 : ℚ) * num = (2 * divNearestEven num den + 1) * den := by linarith
  exact_mod_cast this

/-- Numbers are what they are rounded to. -/
theorem divNearestEven_of_eq (hden : 0 < den) (h : (num : ℚ) / den = n) :
    divNearestEven num den = n := by
  have hnear := abs_divNearestEven_sub_le num hden
  rw [h, abs_le] at hnear
  have hlow : (n : ℚ) < divNearestEven num den + 1 := by linarith
  have hhigh : (divNearestEven num den : ℚ) < n + 1 := by linarith
  exact_mod_cast Nat.le_antisymm (Nat.lt_succ_iff.mp (by exact_mod_cast hhigh))
    (Nat.lt_succ_iff.mp (by exact_mod_cast hlow))

namespace Magnitude

/-! ### The exponent -/

/-- Twice the leading bit is the least number that 53 bits do not hold. -/
theorem cast_bits : ((2 * leadingBit : ℕ) : ℚ) = 2 ^ (53 : ℤ) := by
  norm_num [leadingBit]

/-- **The exponent is the one that leaves 53 bits** before the point, unless it would be below the
least one. -/
theorem exponentOf_eq (hnum : 0 < num) (hden : 0 < den) :
    exponentOf num den = max leastExponent (Int.log 2 ((num : ℚ) / den) - 52) := by
  have hd : (0 : ℚ) < den := Nat.cast_pos.mpr hden
  have hratio : (0 : ℚ) < num / den := div_pos (Nat.cast_pos.mpr hnum) hd
  -- the lengths of numerator and denominator leave two exponents to choose from
  have hnum_le : (2 : ℚ) ^ (num.log2 : ℤ) ≤ num := by
    exact_mod_cast Nat.log2_self_le (Nat.ne_of_gt hnum)
  have hnum_lt : (num : ℚ) < 2 ^ (num.log2 + 1 : ℤ) := by
    exact_mod_cast Nat.lt_log2_self (n := num)
  have hden_le : (2 : ℚ) ^ (den.log2 : ℤ) ≤ den := by
    exact_mod_cast Nat.log2_self_le (Nat.ne_of_gt hden)
  have hden_lt : (den : ℚ) < 2 ^ (den.log2 + 1 : ℤ) := by
    exact_mod_cast Nat.lt_log2_self (n := den)
  have hlow : (num.log2 : ℤ) - den.log2 - 1 ≤ Int.log 2 ((num : ℚ) / den) := by
    rw [← Int.zpow_le_iff_le_log Nat.one_lt_two hratio, Nat.cast_ofNat, le_div_iff₀ hd]
    calc (2 : ℚ) ^ ((num.log2 : ℤ) - den.log2 - 1) * den
        ≤ 2 ^ ((num.log2 : ℤ) - den.log2 - 1) * 2 ^ (den.log2 + 1 : ℤ) := by gcongr
      _ = 2 ^ (num.log2 : ℤ) := by
        rw [← zpow_add₀ (by norm_num)]
        congr 1
        ring
      _ ≤ num := hnum_le
  have hhigh : Int.log 2 ((num : ℚ) / den) < (num.log2 : ℤ) - den.log2 + 1 := by
    rw [← Int.lt_zpow_iff_log_lt Nat.one_lt_two hratio, Nat.cast_ofNat, div_lt_iff₀ hd]
    calc (num : ℚ) < 2 ^ (num.log2 + 1 : ℤ) := hnum_lt
      _ = 2 ^ ((num.log2 : ℤ) - den.log2 + 1) * 2 ^ (den.log2 : ℤ) := by
        rw [← zpow_add₀ (by norm_num)]
        congr 1
        ring
      _ ≤ 2 ^ ((num.log2 : ℤ) - den.log2 + 1) * den := by gcongr
  -- and the comparison chooses the right one
  have hwide (guess : ℤ) : num * twoTo (-guess).toNat ≥ 2 * leadingBit * (den * twoTo guess.toNat) ↔
      guess + 53 ≤ Int.log 2 ((num : ℚ) / den) := by
    have hpos : (0 : ℚ) < (den * twoTo guess.toNat : ℕ) :=
      Nat.cast_pos.mpr (Nat.mul_pos hden (twoTo_pos _))
    rw [← Int.zpow_le_iff_le_log Nat.one_lt_two hratio, Nat.cast_ofNat, ge_iff_le,
      ← @Nat.cast_le ℚ, Nat.cast_mul (2 * leadingBit), ← le_div_iff₀ hpos, scaled_div,
      le_div_iff₀ (by positivity), cast_bits, zpow_add₀ (by norm_num), mul_comm]
  unfold exponentOf
  dsimp only
  congr 1
  split
  · rename_i h
    rw [hwide] at h
    omega
  · rename_i h
    rw [hwide] at h
    omega

/-! ### Rounding -/

/-- The number that a magnitude stands for. -/
def value (x : Magnitude) : ℚ :=
  x.significand * 2 ^ x.exponent

theorem den_pos (x : Magnitude) : 0 < x.den :=
  twoTo_pos _

theorem num_div_den (x : Magnitude) : (x.num : ℚ) / x.den = x.value := by
  rw [num, den, value, Nat.cast_mul, mul_div_assoc, twoTo_div_twoTo]

/-- The multiple of the power of its exponent that a ratio is rounded to. -/
def steps (num den : Nat) : Nat :=
  divNearestEven (num * twoTo (-exponentOf num den).toNat)
    (den * twoTo (exponentOf num den).toNat)

theorem scaled_den_pos (hden : 0 < den) : 0 < den * twoTo e.toNat :=
  Nat.mul_pos hden (twoTo_pos _)

theorem abs_steps_sub_le (num : Nat) (hden : 0 < den) :
    |(steps num den : ℚ) - num / den / 2 ^ exponentOf num den| ≤ 1 / 2 := by
  rw [← scaled_div]
  exact abs_divNearestEven_sub_le _ (scaled_den_pos hden)

theorem steps_of_eq (hden : 0 < den) (h : (num : ℚ) / den / 2 ^ exponentOf num den = n) :
    steps num den = n := by
  rw [← scaled_div] at h
  exact divNearestEven_of_eq (scaled_den_pos hden) h

theorem steps_mod_two (hden : 0 < den)
    (h : (num : ℚ) / den / 2 ^ exponentOf num den = steps num den + 1 / 2) :
    steps num den % 2 = 0 := by
  rw [← scaled_div] at h
  exact divNearestEven_mod_two (scaled_den_pos hden) h

/-- **Rounding goes to the multiple**, whether or not it has to be written with another exponent. -/
theorem value_ofRatio (num den : Nat) :
    (ofRatio num den).value = steps num den * 2 ^ exponentOf num den := by
  unfold ofRatio
  dsimp only
  change (if steps num den = 0 then _ else if steps num den = 2 * leadingBit then _ else _ :
    Magnitude).value = _
  split
  · rename_i hzero
    rw [hzero, value, Nat.cast_zero, zero_mul, zero_mul]
  · split
    · rename_i hcarry
      rw [hcarry, value, zpow_add₀ (by norm_num), Nat.cast_mul]
      push_cast
      ring
    · rfl

/-- The ratio is below 53 bits of its exponent, -/
theorem ratio_lt (hnum : 0 < num) (hden : 0 < den) :
    (num : ℚ) / den / 2 ^ exponentOf num den < 2 ^ (53 : ℤ) := by
  have hratio : (0 : ℚ) < num / den := div_pos (Nat.cast_pos.mpr hnum) (Nat.cast_pos.mpr hden)
  rw [div_lt_iff₀ (by positivity), ← zpow_add₀ (by norm_num)]
  have h := (Int.lt_zpow_iff_log_lt Nat.one_lt_two hratio
    (x := 53 + exponentOf num den)).mpr (by
      rw [exponentOf_eq hnum hden]
      have := le_max_right leastExponent (Int.log 2 ((num : ℚ) / den) - 52)
      omega)
  exact_mod_cast h

/-- and it has all of them unless the exponent is the least one. -/
theorem le_ratio (hnum : 0 < num) (hden : 0 < den) (h : leastExponent < exponentOf num den) :
    2 ^ (52 : ℤ) ≤ (num : ℚ) / den / 2 ^ exponentOf num den := by
  have hratio : (0 : ℚ) < num / den := div_pos (Nat.cast_pos.mpr hnum) (Nat.cast_pos.mpr hden)
  rw [le_div_iff₀ (by positivity), ← zpow_add₀ (by norm_num)]
  have h := (Int.zpow_le_iff_le_log Nat.one_lt_two hratio
    (x := 52 + exponentOf num den)).mpr (by
      rw [exponentOf_eq hnum hden] at h ⊢
      rcases max_choice leastExponent (Int.log 2 ((num : ℚ) / den) - 52) with hmax | hmax
      · rw [hmax] at h
        exact absurd h (lt_irrefl _)
      · rw [hmax]
        omega)
  exact_mod_cast h

theorem steps_le (hnum : 0 < num) (hden : 0 < den) : steps num den ≤ 2 * leadingBit := by
  have hnear := (abs_le.mp (abs_steps_sub_le num hden)).2
  have hlt := ratio_lt hnum hden
  have h : (steps num den : ℚ) < (2 * leadingBit + 1 : ℕ) := by
    rw [Nat.cast_add, cast_bits, Nat.cast_one]
    linarith
  exact Nat.lt_succ_iff.mp (by exact_mod_cast h)

/-! ### Numbers of 53 bits -/

/-- The number has at most 53 significant bits: behind the others there are only zeros. -/
def IsShort (n : Nat) : Prop :=
  ∃ m k, m < 2 * leadingBit ∧ n = m * twoTo k

theorem isShort_of_lt (h : n < 2 * leadingBit) : IsShort n :=
  ⟨n, 0, h, by rw [twoTo_zero, Nat.mul_one]⟩

theorem IsShort.mul_twoTo (h : IsShort n) (k : Nat) : IsShort (n * twoTo k) := by
  obtain ⟨m, j, hm, rfl⟩ := h
  exact ⟨m, j + k, hm, by rw [twoTo_add, Nat.mul_assoc]⟩

/-- **A number of 53 bits is what it is rounded to.** -/
theorem value_ofRatio_of_isShort (hn : IsShort n) (hden : 0 < den) (h : (num : ℚ) / den = n) :
    (ofRatio num den).value = n := by
  obtain ⟨m, k, hm, rfl⟩ := hn
  rw [value_ofRatio]
  rcases Nat.eq_zero_or_pos num with rfl | hnum
  · rw [steps_of_eq (n := 0) hden (by simp), ← h]
    simp
  · -- the power of the exponent divides the number
    have hexponent : exponentOf num den ≤ k := by
      have hlog : Int.log 2 ((num : ℚ) / den) < 53 + k := by
        have hratio : (0 : ℚ) < num / den :=
          div_pos (Nat.cast_pos.mpr hnum) (Nat.cast_pos.mpr hden)
        rw [← Int.lt_zpow_iff_log_lt Nat.one_lt_two hratio, h, Nat.cast_mul, cast_twoTo,
          Nat.cast_ofNat, zpow_add₀ (by norm_num), zpow_natCast]
        have hbits : (m : ℚ) < 2 ^ (53 : ℤ) := cast_bits ▸ Nat.cast_lt.mpr hm
        gcongr
      rw [exponentOf_eq hnum hden]
      unfold leastExponent
      omega
    have hsteps : steps num den = m * twoTo (k - exponentOf num den).toNat := by
      refine steps_of_eq hden ?_
      rw [h, Nat.cast_mul, Nat.cast_mul, cast_twoTo, cast_twoTo, mul_div_assoc, ← zpow_natCast,
        ← zpow_natCast, ← zpow_sub₀ (by norm_num), Int.toNat_of_nonneg (by omega)]
    rw [hsteps, Nat.cast_mul, Nat.cast_mul, cast_twoTo, cast_twoTo, mul_assoc, ← zpow_natCast,
      ← zpow_natCast, ← zpow_add₀ (by norm_num), Int.toNat_of_nonneg (by omega),
      sub_add_cancel]

/-- **Whatever number is rounded, it becomes one of 53 bits.** -/
theorem exists_short (hden : 0 < den) (h : (num : ℚ) / den = n) :
    ∃ short, IsShort short ∧ (ofRatio num den).value = short ∧ (IsShort n → short = n) := by
  by_cases hn : IsShort n
  · exact ⟨n, hn, value_ofRatio_of_isShort hn hden h, fun _ => rfl⟩
  · have hlong : 2 * leadingBit ≤ n := Nat.not_lt.mp fun hlt => hn (isShort_of_lt hlt)
    have hlarge : (2 : ℚ) ^ (53 : ℤ) ≤ num / den := by
      rw [h, ← cast_bits]
      exact Nat.cast_le.mpr hlong
    have hratio : (0 : ℚ) < num / den := lt_of_lt_of_le (by positivity) hlarge
    have hnum : 0 < num := by
      refine Nat.pos_of_ne_zero fun hzero => ?_
      rw [hzero, Nat.cast_zero, zero_div] at hratio
      exact lt_irrefl _ hratio
    have hexponent : 0 ≤ exponentOf num den := by
      have hlog := (Int.zpow_le_iff_le_log Nat.one_lt_two hratio (x := 53)).mp
        (by exact_mod_cast hlarge)
      rw [exponentOf_eq hnum hden]
      omega
    refine ⟨steps num den * twoTo (exponentOf num den).toNat, ?_, ?_, fun h => absurd h hn⟩
    · rcases Nat.lt_or_ge (steps num den) (2 * leadingBit) with hlt | hge
      · exact (isShort_of_lt hlt).mul_twoTo _
      · -- the carry makes a power of two
        have hpower : IsShort (2 * leadingBit) := ⟨leadingBit, 1, by decide, by decide⟩
        rw [Nat.le_antisymm (steps_le hnum hden) hge]
        exact hpower.mul_twoTo _
    · rw [value_ofRatio, Nat.cast_mul, cast_twoTo, ← zpow_natCast, Int.toNat_of_nonneg hexponent]

/-- Zeros at the end do not count. -/
theorem isShort_mul_twoTo_iff {k : Nat} : IsShort (n * twoTo k) ↔ IsShort n := by
  refine ⟨fun ⟨m, j, hm, heq⟩ => ?_, fun h => h.mul_twoTo k⟩
  rcases Nat.le_total k j with hle | hle
  · refine ⟨m, j - k, hm, Nat.eq_of_mul_eq_mul_right (twoTo_pos k) ?_⟩
    rw [heq, Nat.mul_assoc, ← twoTo_add, Nat.sub_add_cancel hle]
  · have hn : n * twoTo (k - j) = m := by
      refine Nat.eq_of_mul_eq_mul_right (twoTo_pos j) ?_
      rw [← heq, Nat.mul_assoc, ← twoTo_add, Nat.sub_add_cancel hle]
    exact isShort_of_lt (Nat.lt_of_le_of_lt (Nat.le_mul_of_pos_right n (twoTo_pos _)) (hn ▸ hm))

theorem value_ofNat_of_isShort (hn : IsShort n) : (ofNat n).value = n :=
  value_ofRatio_of_isShort hn Nat.one_pos (by rw [Nat.cast_one, div_one])

/-- A product is exact if it has at most 53 bits. -/
theorem value_mul_of_isShort {x y : Magnitude} (hn : IsShort n) (h : x.value * y.value = n) :
    (x.mul y).value = n := by
  refine value_ofRatio_of_isShort hn (Nat.mul_pos x.den_pos y.den_pos) ?_
  rw [Nat.cast_mul, Nat.cast_mul, mul_div_mul_comm, num_div_den, num_div_den, h]

/-- A natural number is nearest to itself. -/
theorem round_of_value {x : Magnitude} (h : x.value = n) : x.round = n := by
  have hden : (x.den : ℚ) ≠ 0 := Nat.cast_ne_zero.mpr (Nat.ne_of_gt x.den_pos)
  have hnum : x.num = n * x.den := by
    rw [← num_div_den, div_eq_iff hden] at h
    exact_mod_cast h
  rw [round, divNearestUp, hnum, show 2 * (n * x.den) + x.den = x.den + 2 * x.den * n by ring,
    Nat.add_mul_div_left _ _ (Nat.mul_pos Nat.two_pos x.den_pos),
    Nat.div_eq_of_lt (by have := x.den_pos; omega), Nat.zero_add]

/-! ### The end of the doubles -/

/-- Half a step above the greatest double: what is rounded from here on is beyond the doubles. -/
def beyond : Nat :=
  (4 * leadingBit - 1) * twoTo 970

theorem cast_beyond : (beyond : ℚ) = (2 ^ (53 : ℤ) - 1 / 2) * 2 ^ (971 : ℤ) := by
  rw [beyond, Nat.cast_mul, cast_twoTo, show (971 : ℤ) = (970 : ℕ) + 1 by norm_num,
    zpow_add₀ (by norm_num), zpow_natCast, zpow_one]
  generalize (2 : ℚ) ^ 970 = step
  norm_num [leadingBit]
  ring

theorem fits_ofRatio : (ofRatio num den).fits = true ↔
    exponentOf num den ≤ 970 ∨
      exponentOf num den = 971 ∧ steps num den ≠ 2 * leadingBit ∨ steps num den = 0 := by
  unfold ofRatio
  dsimp only
  change (if steps num den = 0 then _ else if steps num den = 2 * leadingBit then _ else _ :
    Magnitude).fits = true ↔ _
  unfold fits greatestExponent
  rw [decide_eq_true_iff]
  split
  · rename_i hzero
    exact iff_of_true (by decide) (Or.inr (Or.inr hzero))
  · split
    · rename_i hne hcarry
      dsimp only
      simp only [hcarry, ne_eq, not_true_eq_false, and_false, false_or]
      constructor
      · intro h
        exact Or.inl (by omega)
      · rintro (h | h)
        · omega
        · exact absurd h (by decide)
    · rename_i hne hcarry
      dsimp only
      simp only [hne, hcarry, ne_eq, not_false_eq_true, and_true, or_false]
      omega

theorem lt_beyond_iff (hden : 0 < den) :
    num < beyond * den ↔ (num : ℚ) / den / 2 ^ exponentOf num den * 2 ^ exponentOf num den <
      (2 ^ (53 : ℤ) - 1 / 2) * 2 ^ (971 : ℤ) := by
  have hd : (0 : ℚ) < den := Nat.cast_pos.mpr hden
  have hpower : (0 : ℚ) < 2 ^ exponentOf num den := by positivity
  rw [div_mul_cancel₀ _ (ne_of_gt hpower), div_lt_iff₀ hd, ← cast_beyond]
  exact_mod_cast Iff.rfl

/-- A ratio with a lesser exponent than the greatest one is within the doubles: their end is almost
twice as far as the numbers of that exponent go. -/
theorem lt_beyond_of_lt (hnum : 0 < num) (hden : 0 < den) (h : exponentOf num den < 971) :
    num < beyond * den := by
  have hlt := ratio_lt hnum hden
  have hpower : (0 : ℚ) < 2 ^ exponentOf num den := by positivity
  have hpow : (2 : ℚ) ^ exponentOf num den ≤ 2 ^ (970 : ℤ) :=
    zpow_le_zpow_right₀ (by norm_num) (by omega)
  have hdouble : (2 : ℚ) ^ (971 : ℤ) = 2 ^ (970 : ℤ) * 2 := zpow_add_one₀ (by norm_num) 970
  rw [lt_beyond_iff hden]
  calc (num : ℚ) / den / 2 ^ exponentOf num den * 2 ^ exponentOf num den
      < 2 ^ (53 : ℤ) * 2 ^ exponentOf num den := by gcongr
    _ ≤ 2 ^ (53 : ℤ) * 2 ^ (970 : ℤ) := by gcongr
    _ ≤ (2 ^ (53 : ℤ) - 1 / 2) * 2 ^ (971 : ℤ) := by
      have hstep : (0 : ℚ) < 2 ^ (970 : ℤ) := by positivity
      rw [hdouble]
      generalize (2 : ℚ) ^ (970 : ℤ) = step at hstep ⊢
      norm_num
      linarith

/-- A ratio with a greater exponent is not: the least number of that exponent is beyond them. -/
theorem not_lt_beyond_of_gt (hnum : 0 < num) (hden : 0 < den) (h : 971 < exponentOf num den) :
    ¬ num < beyond * den := by
  have hle := le_ratio hnum hden (lt_trans (by decide) h)
  have hpow : (2 : ℚ) ^ (972 : ℤ) ≤ 2 ^ exponentOf num den :=
    zpow_le_zpow_right₀ (by norm_num) (by omega)
  have hdouble : (2 : ℚ) ^ (972 : ℤ) = 2 ^ (971 : ℤ) * 2 := zpow_add_one₀ (by norm_num) 971
  rw [lt_beyond_iff hden, not_lt]
  calc (2 ^ (53 : ℤ) - 1 / 2) * 2 ^ (971 : ℤ) ≤ 2 ^ (52 : ℤ) * 2 ^ (972 : ℤ) := by
        have hstep : (0 : ℚ) < 2 ^ (971 : ℤ) := by positivity
        rw [hdouble]
        generalize (2 : ℚ) ^ (971 : ℤ) = step at hstep ⊢
        norm_num
        linarith
    _ ≤ (num : ℚ) / den / 2 ^ exponentOf num den * 2 ^ exponentOf num den := by gcongr

/-- With the greatest exponent, what is rounded up to a power of two is beyond them. The middle
between the greatest double and that power is rounded up, since the power is even. -/
theorem lt_beyond_iff_of_eq (hnum : 0 < num) (hden : 0 < den) (he : exponentOf num den = 971) :
    num < beyond * den ↔ steps num den ≠ 2 * leadingBit := by
  obtain ⟨hnear, hnear'⟩ := abs_le.mp (abs_steps_sub_le num hden)
  have htie := @steps_mod_two num den hden
  have hsteps := steps_le hnum hden
  rw [lt_beyond_iff hden]
  rw [he] at hnear hnear' htie ⊢
  rw [mul_lt_mul_iff_left₀ (by positivity)]
  generalize (num : ℚ) / den / 2 ^ (971 : ℤ) = x at hnear hnear' htie ⊢
  generalize steps num den = s at hnear hnear' htie hsteps ⊢
  constructor
  · intro h hs
    rw [hs, cast_bits] at hnear'
    linarith
  · intro hne
    have hsmall : (s : ℚ) + 1 ≤ 2 ^ (53 : ℤ) := by
      rw [← cast_bits]
      exact_mod_cast Nat.succ_le_of_lt (Nat.lt_of_le_of_ne hsteps hne)
    refine lt_of_le_of_ne (by linarith) fun hmiddle => ?_
    have heven := htie (by linarith)
    have hlast : (s : ℚ) = (2 * leadingBit - 1 : ℕ) := by
      rw [Nat.cast_sub (by decide), cast_bits, Nat.cast_one]
      linarith
    rw [Nat.cast_injective hlast] at heven
    exact absurd heven (by decide)

/-- **A ratio is rounded to a double exactly if it is not half a step beyond them**, or farther. -/
theorem fits_ofRatio_iff (hnum : 0 < num) (hden : 0 < den) :
    (ofRatio num den).fits = true ↔ num < beyond * den := by
  rw [fits_ofRatio]
  rcases lt_trichotomy (exponentOf num den) 971 with hlow | heq | hhigh
  · exact iff_of_true (Or.inl (by omega)) (lt_beyond_of_lt hnum hden hlow)
  · rw [lt_beyond_iff_of_eq hnum hden heq, heq]
    constructor
    · rintro (h | ⟨_, h⟩ | h)
      · exact absurd h (by decide)
      · exact h
      · exact h ▸ by decide
    · exact fun h => Or.inr (Or.inl ⟨rfl, h⟩)
  · refine iff_of_false ?_ (not_lt_beyond_of_gt hnum hden hhigh)
    have hnear := (abs_le.mp (abs_steps_sub_le num hden)).1
    have hfull := le_ratio hnum hden (lt_trans (by decide) hhigh)
    rintro (h | ⟨h, _⟩ | h)
    · omega
    · omega
    · rw [h, Nat.cast_zero] at hnear
      norm_num at hfull
      linarith

end Magnitude
end RangeSync.Numeric
