import RangeSync.Proofs.Rounding

/-!
# Rounding as a function of numbers

A magnitude is computed from a numerator and a denominator, but what it is rounded to depends only
on their quotient: rounding keeps the order of the quotients
(`RangeSync.Numeric.Magnitude.value_ofRatio_mono`), so equal ones are rounded alike, and there is a
function of rational numbers, `RangeSync.Numeric.Magnitude.nearest`, that every operation on
magnitudes ends with. An operation on rounded numbers is then a term in which `nearest` stands for
each rounding, and three facts about it are all that is used of the binary format from here on:

* it is monotone (`RangeSync.Numeric.Magnitude.nearest_mono`), and a natural number of 53 bits is a
  fixed point, so that a comparison with such a number survives the rounding;
* it changes a number that is not tiny by at most a `2 ^ 53`th of it
  (`RangeSync.Numeric.Magnitude.nearest_le`, `RangeSync.Numeric.Magnitude.le_nearest`), so that a
  comparison that is clear enough survives a chain of roundings;
* of two natural numbers of 53 bits, the greater one exceeds the other by more than a `2 ^ 53`th
  (`RangeSync.Numeric.Magnitude.IsShort.lt_gap`), so that what is different after rounding is not
  close.

That rounding keeps the order is a matter of two cases. With the same exponent the steps are counted
alike, and of two quotients that are rounded to neighbours in the wrong order both would have to be
in the middle, where each goes to an even number (`RangeSync.Numeric.divNearestEven_mono`). With
different exponents, the full steps of the greater one are never fewer.
-/

namespace RangeSync.Numeric

variable {num den num' den' n k : Nat} {q r : ℚ}

/-- A quotient in the middle is rounded up only to an even number. -/
theorem divNearestEven_mod_two_of_up (hden : 0 < den)
    (h : (num : ℚ) / den + 1 / 2 = divNearestEven num den) : divNearestEven num den % 2 = 0 := by
  refine (divNearestEven_spec num hden).2.2 (Or.inr ?_)
  have hd : (den : ℚ) ≠ 0 := Nat.cast_ne_zero.mpr (Nat.ne_of_gt hden)
  have hdouble : (2 : ℚ) * divNearestEven num den * den = 2 * num + den := by
    rw [← h]
    field_simp
  exact_mod_cast hdouble

/-- Of two quotients, the smaller one is not rounded to the greater number. -/
theorem divNearestEven_mono (hden : 0 < den) (hden' : 0 < den')
    (h : (num : ℚ) / den ≤ num' / den') : divNearestEven num den ≤ divNearestEven num' den' := by
  obtain ⟨_, hhigh⟩ := abs_le.mp (abs_divNearestEven_sub_le num hden)
  obtain ⟨hlow, _⟩ := abs_le.mp (abs_divNearestEven_sub_le num' hden')
  refine Nat.le_of_not_lt fun hlt => ?_
  have hnext : (divNearestEven num' den' : ℚ) + 1 ≤ divNearestEven num den := by
    exact_mod_cast hlt
  -- then both quotients are in the middle of two numbers, and each is rounded to an even one
  have heven' : divNearestEven num' den' % 2 = 0 := divNearestEven_mod_two hden' (by linarith)
  have heven : divNearestEven num den % 2 = 0 := divNearestEven_mod_two_of_up hden (by linarith)
  have hsucc : (divNearestEven num den : ℚ) = (divNearestEven num' den' + 1 : ℕ) := by
    push_cast
    linarith
  have hsucc := Nat.cast_injective hsucc
  omega

namespace Magnitude

theorem steps_zero (hden : 0 < den) : steps 0 den = 0 :=
  steps_of_eq hden (by simp)

/-- **Rounding keeps the order.** -/
theorem value_ofRatio_mono (hden : 0 < den) (hden' : 0 < den')
    (h : (num : ℚ) / den ≤ num' / den') : (ofRatio num den).value ≤ (ofRatio num' den').value := by
  rw [value_ofRatio, value_ofRatio]
  rcases Nat.eq_zero_or_pos num with rfl | hnum
  · rw [steps_zero hden, Nat.cast_zero, zero_mul]
    positivity
  have hd' : (0 : ℚ) < den' := Nat.cast_pos.mpr hden'
  have hratio : (0 : ℚ) < num / den := div_pos (Nat.cast_pos.mpr hnum) (Nat.cast_pos.mpr hden)
  have hnum' : 0 < num' := by
    have hpos := (div_pos_iff_of_pos_right hd').mp (lt_of_lt_of_le hratio h)
    exact_mod_cast hpos
  have hexponent : exponentOf num den ≤ exponentOf num' den' := by
    rw [exponentOf_eq hnum hden, exponentOf_eq hnum' hden']
    have := Int.log_mono_right hratio h (b := 2)
    omega
  rcases hexponent.eq_or_lt with heq | hlt
  · -- with the same exponent, the same steps are counted
    have hscaled : (num : ℚ) / den / 2 ^ exponentOf num den ≤
        num' / den' / 2 ^ exponentOf num den := by gcongr
    rw [heq] at hscaled ⊢
    have hsteps : steps num den ≤ steps num' den' := by
      unfold steps
      rw [heq]
      refine divNearestEven_mono (scaled_den_pos hden) (scaled_den_pos hden') ?_
      rwa [scaled_div, scaled_div]
    gcongr
  · -- with a lesser one, all of the steps are at most half of those that there are at least
    have hfull : leadingBit ≤ steps num' den' := by
      have hle := le_ratio hnum' hden' (lt_of_le_of_lt
        (by rw [exponentOf_eq hnum hden]; exact le_max_left _ _) hlt)
      have hnear := (abs_le.mp (abs_steps_sub_le num' hden')).1
      have h : ((leadingBit : ℕ) : ℚ) < (steps num' den' + 1 : ℕ) := by
        norm_num [leadingBit] at hle ⊢
        linarith
      exact Nat.lt_succ_iff.mp (Nat.cast_lt.mp h)
    calc (steps num den : ℚ) * 2 ^ exponentOf num den
        ≤ (2 * leadingBit : ℕ) * 2 ^ exponentOf num den := by
          gcongr
          exact steps_le hnum hden
      _ = leadingBit * 2 ^ (exponentOf num den + 1) := by
          rw [zpow_add_one₀ (by norm_num)]
          push_cast
          ring
      _ ≤ steps num' den' * 2 ^ exponentOf num' den' := by
          gcongr
          · norm_num
          · omega

/-- **The double nearest to a number**, as a number; of two, the one with the even significand. -/
def nearest (q : ℚ) : ℚ :=
  (ofRatio q.num.toNat q.den).value

theorem toNat_num_div_den (hq : 0 ≤ q) : (q.num.toNat : ℚ) / q.den = q := by
  have hnum : ((q.num.toNat : ℕ) : ℤ) = q.num := Int.toNat_of_nonneg (Rat.num_nonneg.mpr hq)
  have hcast : ((q.num.toNat : ℕ) : ℚ) = (q.num : ℚ) := by exact_mod_cast hnum
  rw [hcast, Rat.num_div_den]

/-- **What a ratio is rounded to depends only on the number that it is.** -/
theorem value_ofRatio_eq_nearest (num : Nat) (hden : 0 < den) :
    (ofRatio num den).value = nearest (num / den) := by
  have hsame := toNat_num_div_den (q := (num : ℚ) / den) (by positivity)
  exact le_antisymm (value_ofRatio_mono hden (Rat.den_pos _) hsame.ge)
    (value_ofRatio_mono (Rat.den_pos _) hden hsame.le)

theorem nearest_mono (hq : 0 ≤ q) (h : q ≤ r) : nearest q ≤ nearest r := by
  refine value_ofRatio_mono (Rat.den_pos q) (Rat.den_pos r) ?_
  rwa [toNat_num_div_den hq, toNat_num_div_den (hq.trans h)]

theorem value_nonneg (x : Magnitude) : 0 ≤ x.value := by
  unfold value
  positivity

theorem nearest_nonneg (q : ℚ) : 0 ≤ nearest q :=
  value_nonneg _

theorem value_ofNat (n : Nat) : (ofNat n).value = nearest n := by
  rw [ofNat, value_ofRatio_eq_nearest n Nat.one_pos, Nat.cast_one, div_one]

theorem nearest_natCast (hn : IsShort n) : nearest n = n := by
  rw [← value_ofNat, value_ofNat_of_isShort hn]

theorem nearest_zero : nearest 0 = 0 := by
  simpa using nearest_natCast (n := 0) (isShort_of_lt (by decide))

theorem nearest_one : nearest 1 = 1 := by
  simpa using nearest_natCast (n := 1) (isShort_of_lt (by decide))

theorem one_le_nearest (hn : 0 < n) : 1 ≤ nearest n := by
  have hone : (1 : ℚ) ≤ n := by exact_mod_cast hn
  exact nearest_one ▸ nearest_mono one_pos.le hone

theorem num_ofNat_pos (hn : 0 < n) : 0 < (ofNat n).num := by
  have hvalue := one_le_nearest hn
  rw [← value_ofNat, ← num_div_den] at hvalue
  refine Nat.pos_of_ne_zero fun hzero => ?_
  rw [hzero, Nat.cast_zero, zero_div] at hvalue
  linarith

/-- A natural number is rounded to one of 53 bits. -/
theorem exists_short_nearest (n : Nat) :
    ∃ short, IsShort short ∧ nearest n = short ∧ (IsShort n → short = n) := by
  rw [← value_ofNat]
  exact exists_short Nat.one_pos (by rw [Nat.cast_one, div_one])

/-! ### Arithmetic -/

variable {x y : Magnitude}

theorem value_mul (x y : Magnitude) : (x.mul y).value = nearest (x.value * y.value) := by
  rw [mul, value_ofRatio_eq_nearest _ (Nat.mul_pos x.den_pos y.den_pos), Nat.cast_mul,
    Nat.cast_mul, mul_div_mul_comm, num_div_den, num_div_den]

theorem value_div (x : Magnitude) (hy : 0 < y.num) :
    (x.div y).value = nearest (x.value / y.value) := by
  rw [div, value_ofRatio_eq_nearest _ (Nat.mul_pos x.den_pos hy), Nat.cast_mul, Nat.cast_mul,
    mul_div_mul_comm, ← num_div_den x, ← num_div_den y, div_div_eq_mul_div, mul_div_assoc]

theorem le_iff (x y : Magnitude) : x.le y = true ↔ x.value ≤ y.value := by
  have hx : (0 : ℚ) < x.den := Nat.cast_pos.mpr x.den_pos
  have hy : (0 : ℚ) < y.den := Nat.cast_pos.mpr y.den_pos
  rw [le, decide_eq_true_iff, ← num_div_den, ← num_div_den, div_le_div_iff₀ hx hy]
  exact_mod_cast Iff.rfl

theorem value_min_of_le (h : x.value ≤ y.value) : (x.min y).value = x.value := by
  rw [min, if_pos ((le_iff x y).mpr h)]

/-- A natural number is at most the floor if it is at most the number. -/
theorem le_floor_iff : k ≤ x.floor ↔ (k : ℚ) ≤ x.value := by
  have hden : (0 : ℚ) < x.den := Nat.cast_pos.mpr x.den_pos
  rw [floor, Nat.le_div_iff_mul_le x.den_pos, ← num_div_den, le_div_iff₀ hden]
  exact_mod_cast Iff.rfl

theorem floor_mono (h : x.value ≤ y.value) : x.floor ≤ y.floor :=
  le_floor_iff.mpr ((le_floor_iff.mp le_rfl).trans h)

/-! ### How far rounding goes -/

/-- **Rounding changes a number by at most a `2 ^ 53`th of it**, unless it is far too small. -/
theorem abs_nearest_sub_le (hq : 2 ^ (-1000 : ℤ) ≤ q) : |nearest q - q| ≤ q / 2 ^ (53 : ℤ) := by
  have hpos : 0 < q := lt_of_lt_of_le (by positivity) hq
  have hsame := toNat_num_div_den hpos.le
  have hden := Rat.den_pos q
  have hnum : 0 < q.num.toNat := by
    have := Rat.num_pos.mpr hpos
    omega
  unfold nearest
  rw [value_ofRatio]
  have hnear := abs_steps_sub_le q.num.toNat hden
  have hexponent : leastExponent < exponentOf q.num.toNat q.den := by
    rw [exponentOf_eq hnum hden, hsame]
    have hlog := (Int.zpow_le_iff_le_log Nat.one_lt_two hpos (x := -1000)).mp
      (by exact_mod_cast hq)
    unfold leastExponent
    omega
  have hfull := le_ratio hnum hden hexponent
  rw [hsame] at hnear hfull
  generalize exponentOf q.num.toNat q.den = e at *
  generalize (steps q.num.toNat q.den : ℚ) = s at *
  have hstep : (0 : ℚ) < 2 ^ e := by positivity
  calc |s * 2 ^ e - q| = |s - q / 2 ^ e| * 2 ^ e := by
        rw [← abs_of_pos hstep, ← abs_mul, abs_of_pos hstep, sub_mul,
          div_mul_cancel₀ _ (ne_of_gt hstep)]
    _ ≤ 1 / 2 * 2 ^ e := by gcongr
    _ ≤ q / 2 ^ (53 : ℤ) := by
        rw [le_div_iff₀ hstep] at hfull
        rw [le_div_iff₀ (by positivity), show (53 : ℤ) = 52 + 1 by rfl,
          zpow_add_one₀ (by norm_num)]
        linarith

/-- The part of a number that rounding may change. -/
def grain : ℚ :=
  1 / 9007199254740992

/-- The number is zero, or large enough for all of its bits to count. -/
def IsOrdinary (q : ℚ) : Prop :=
  q = 0 ∨ 2 ^ (-1000 : ℤ) ≤ q

theorem IsOrdinary.of_natCast (n : Nat) : IsOrdinary n := by
  rcases Nat.eq_zero_or_pos n with rfl | hn
  · exact Or.inl Nat.cast_zero
  · have hone : (1 : ℚ) ≤ n := by exact_mod_cast hn
    exact Or.inr ((zpow_le_one_of_nonpos₀ (by norm_num) (by norm_num)).trans hone)

theorem nearest_le (hq : IsOrdinary q) : nearest q ≤ q * (1 + grain) := by
  rcases hq with rfl | hq
  · rw [nearest_zero, zero_mul]
  · have h := (abs_le.mp (abs_nearest_sub_le hq)).2
    norm_num [grain] at h ⊢
    linarith

theorem le_nearest (hq : IsOrdinary q) : q * (1 - grain) ≤ nearest q := by
  rcases hq with rfl | hq
  · rw [nearest_zero, zero_mul]
  · have h := (abs_le.mp (abs_nearest_sub_le hq)).1
    norm_num [grain] at h ⊢
    linarith

/-- A number of 53 bits has all of them, or no zeros behind them. -/
theorem IsShort.exists_full (hn : IsShort n) :
    ∃ m j, m < 2 * leadingBit ∧ n = m * twoTo j ∧ (leadingBit ≤ m ∨ j = 0) := by
  obtain ⟨m, j, hm, rfl⟩ := hn
  induction j generalizing m with
  | zero => exact ⟨m, 0, hm, rfl, Or.inr rfl⟩
  | succ j ih =>
    rcases Nat.lt_or_ge m leadingBit with hlt | hge
    · obtain ⟨m', j', hm', heq, hfull⟩ := ih (2 * m) (by omega)
      refine ⟨m', j', hm', ?_, hfull⟩
      rw [← heq, twoTo_succ, Nat.mul_comm (twoTo j), ← Nat.mul_assoc, Nat.mul_comm m]
    · exact ⟨m, j + 1, hm, rfl, Or.inl hge⟩

/-- **Between two numbers of 53 bits** there is more than a `2 ^ 53`th of the smaller one. -/
theorem IsShort.lt_gap (hn : IsShort n) (hk : IsShort k) (h : n < k) :
    (2 * leadingBit + 1) * n < 2 * leadingBit * k := by
  obtain ⟨m, j, hm, rfl, hfull⟩ := hn.exists_full
  obtain ⟨m', j', hm', rfl⟩ := hk
  rcases Nat.lt_or_ge j' j with hlt | hle
  · -- 53 bits of a lesser power do not make more than a number that has all of its bits
    refine absurd h (Nat.not_lt.mpr ?_)
    have hm := hfull.resolve_right (by omega)
    calc m' * twoTo j' ≤ 2 * leadingBit * twoTo j' := Nat.mul_le_mul_right _ hm'.le
      _ = leadingBit * twoTo (j' + 1) := by rw [twoTo_succ, Nat.mul_comm (twoTo j')]; ring
      _ ≤ m * twoTo j := Nat.mul_le_mul hm (twoTo_le_twoTo hlt)
  · -- the greater one is a multiple of the same power, so it is at least the next multiple
    have hsplit : m' * twoTo j' = m' * twoTo (j' - j) * twoTo j := by
      rw [Nat.mul_assoc, ← twoTo_add, Nat.sub_add_cancel hle]
    rw [hsplit] at h ⊢
    rw [← Nat.mul_assoc, ← Nat.mul_assoc]
    have hnext := Nat.lt_of_mul_lt_mul_right h
    refine Nat.mul_lt_mul_of_pos_right ?_ (twoTo_pos j)
    generalize m' * twoTo (j' - j) = w at hnext ⊢
    unfold leadingBit at *
    omega

end Magnitude
end RangeSync.Numeric
