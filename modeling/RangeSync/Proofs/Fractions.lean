import RangeSync.Proofs.Rounding
import RangeSync.Text.Cut

/-!
# How decimal fractions are read

A fraction is digits with at most one point among them. The reader is made for more, it takes a
power of ten behind them; so of a text in which only digits and points occur, it has to be said that
what is read is a fraction and nothing else (`RangeSync.Numeric.Decimal.exists_isFraction`). A second
point is not skipped: it stands where the mark of a power would have to stand.

A fraction is a ratio whose denominator is a power of ten, and it is rounded as one, except that a
number which is far too great or far too small is recognised by its number of digits, before any
power is multiplied out. That this makes no difference is what
`RangeSync.Numeric.Decimal.toMagnitude_cases` says. So the two questions about rounding have the same
answers for fractions: which of them are doubles
(`RangeSync.Numeric.Decimal.fits_toMagnitude_iff`), and what becomes of a natural number, with how
many zeros behind the point it may be written
(`RangeSync.Numeric.Decimal.exists_short_toMagnitude`).
-/

namespace RangeSync.Numeric

open Text Magnitude

namespace Decimal

variable {s whole places : List Char} {n k digits : Nat} {x : Decimal}

/-! ### Texts -/

/-- The text is a fraction: digits, at least one, and at most one point among them. -/
def IsFraction (s whole places : List Char) : Prop :=
  (∀ c ∈ whole ++ places, isDigit c = true) ∧ whole ++ places ≠ [] ∧
    (s = whole ∧ places = [] ∨ s = whole ++ '.' :: places)

/-- The digits on both sides of a point are one run of digits. -/
theorem readFraction_of_point {rest : List Char} (htake : s.takeWhile isDigit = whole)
    (hdrop : s.dropWhile isDigit = '.' :: rest) :
    readFraction s =
      (whole ++ rest.takeWhile isDigit, (rest.takeWhile isDigit).length, rest.dropWhile isDigit) := by
  simp only [readFraction, htake, hdrop]

/-- A fraction is read as its digits, with the power of ten that its places make. -/
theorem read?_of_isFraction (h : IsFraction s whole places) :
    read? s = some ⟨valueOf (whole ++ places), -(places.length : Int)⟩ := by
  obtain ⟨hdigits, hne, hs⟩ := h
  rw [List.forall_mem_append] at hdigits
  have hparts : readFraction s = (whole ++ places, places.length, []) := by
    rcases hs with ⟨rfl, rfl⟩ | rfl
    · obtain ⟨htake, hdrop⟩ := takeWhile_dropWhile_of_forall hdigits.1
      simp only [readFraction, htake, hdrop, List.append_nil, List.length_nil]
    · obtain ⟨htake, hdrop⟩ : (whole ++ '.' :: places).takeWhile isDigit = whole ∧
          (whole ++ '.' :: places).dropWhile isDigit = '.' :: places :=
        takeWhile_dropWhile_append hdigits.1 (by decide)
      obtain ⟨htake', hdrop'⟩ := takeWhile_dropWhile_of_forall hdigits.2
      rw [readFraction_of_point htake hdrop, htake', hdrop']
  obtain ⟨c, rest, hcons⟩ := List.exists_cons_of_ne_nil hne
  unfold read?
  rw [hparts, hcons]

/-- Behind the digits at the front of a text of digits and points there is nothing or a point. -/
theorem dropWhile_isDigit_cases (hs : ∀ c ∈ s, isDigit c = true ∨ c = '.') :
    (∀ c ∈ s, isDigit c = true) ∨ ∃ whole rest, s = whole ++ '.' :: rest ∧
      s.takeWhile isDigit = whole ∧ s.dropWhile isDigit = '.' :: rest ∧
      ∀ c ∈ rest, isDigit c = true ∨ c = '.' := by
  induction s with
  | nil => exact Or.inl nofun
  | cons a s ih =>
    rw [List.forall_mem_cons] at hs
    by_cases ha : isDigit a = true
    · rw [List.takeWhile_cons_of_pos ha, List.dropWhile_cons_of_pos ha]
      obtain hdigits | ⟨whole, rest, rfl, htake, hdrop, hrest⟩ := ih hs.2
      · exact Or.inl (List.forall_mem_cons.mpr ⟨ha, hdigits⟩)
      · exact Or.inr ⟨a :: whole, rest, rfl, congrArg (a :: ·) htake, hdrop, hrest⟩
    · rw [List.takeWhile_cons_of_neg ha, List.dropWhile_cons_of_neg ha, hs.1.resolve_left ha]
      exact Or.inr ⟨[], s, rfl, rfl, rfl, hs.2⟩

/-- A text of digits and points that is read is a fraction. -/
theorem exists_isFraction (hs : ∀ c ∈ s, isDigit c = true ∨ c = '.') (h : read? s ≠ none) :
    ∃ whole places, IsFraction s whole places := by
  obtain hdigits | ⟨whole, rest, hsplit, htake, hdrop, hrest⟩ := dropWhile_isDigit_cases hs
  · refine ⟨s, [], (List.append_nil s).symm ▸ hdigits, ?_, Or.inl ⟨rfl, rfl⟩⟩
    rintro hnil
    rw [List.append_nil] at hnil
    exact h (hnil ▸ rfl)
  · have hwhole : ∀ c ∈ whole, isDigit c = true := htake ▸ List.all_eq_true.mp List.all_takeWhile
    obtain hplaces | ⟨places, more, _, htake', hdrop', _⟩ := dropWhile_isDigit_cases hrest
    · refine ⟨whole, rest, List.forall_mem_append.mpr ⟨hwhole, hplaces⟩, ?_, Or.inr hsplit⟩
      rintro hnil
      obtain ⟨rfl, rfl⟩ := List.append_eq_nil_iff.mp hnil
      exact h (hsplit ▸ rfl)
    · -- a second point is neither a digit nor the mark of a power
      refine absurd ?_ h
      unfold read?
      rw [readFraction_of_point htake hdrop, hdrop']
      cases whole ++ rest.takeWhile isDigit <;> rfl

/-! ### Lengths -/

/-- The number of digits says between which powers of ten a number is. -/
theorem exists_length_decimal (n : Nat) : ∃ k, (decimal n).length = k + 1 ∧
    (n ≠ 0 → tenTo k ≤ n) ∧ n < tenTo (k + 1) := by
  rw [← String.length_toList, toList_decimal]
  induction n using Nat.base_induction 10 (by decide) with
  | single n hn =>
    rw [Nat.toDigits_of_lt_base hn]
    exact ⟨0, rfl, Nat.pos_of_ne_zero, hn⟩
  | digit n v hv hn ih =>
    obtain ⟨k, hlength, hle, hlt⟩ := ih
    have hle := hle (Nat.ne_of_gt hn)
    refine ⟨k + 1, ?_, fun _ => ?_, ?_⟩
    · rw [← Nat.toDigits_append_toDigits (by decide) hn hv, Nat.toDigits_of_lt_base hv,
        List.length_append, List.length_singleton, hlength]
    · rw [tenTo_succ]
      omega
    · rw [tenTo_succ (k + 1)]
      omega

/-! ### Rounding -/

theorem tenTo_add (m n : Nat) : tenTo (m + n) = tenTo m * tenTo n :=
  Nat.pow_add 10 m n

theorem tenTo_le_tenTo {m n : Nat} (h : m ≤ n) : tenTo m ≤ tenTo n :=
  Nat.pow_le_pow_right (by decide) h

theorem beyond_le : beyond ≤ tenTo 400 := by
  decide +kernel

/-- **How a fraction is rounded**: as the ratio that it is, unless it is too great or too small for
any double. -/
theorem toMagnitude_cases (digits k : Nat) :
    (toMagnitude ⟨digits, -(k : Int)⟩ = ofRatio digits (tenTo k)) ∨
      (toMagnitude ⟨digits, -(k : Int)⟩ = ofNat 0 ∧ digits < tenTo k) ∨
      ((toMagnitude ⟨digits, -(k : Int)⟩).fits = false ∧ beyond * tenTo k ≤ digits) := by
  obtain ⟨j, hlength, hle, hlt⟩ := exists_length_decimal digits
  unfold toMagnitude hugePower
  dsimp only
  rw [hlength]
  split
  · rename_i hzero
    exact Or.inr (Or.inl ⟨rfl, hzero ▸ tenTo_pos k⟩)
  · rename_i hne
    split
    · rename_i hhuge
      refine Or.inr (Or.inr ⟨by decide, ?_⟩)
      calc beyond * tenTo k ≤ tenTo 400 * tenTo k := Nat.mul_le_mul_right _ beyond_le
        _ = tenTo (400 + k) := (tenTo_add 400 k).symm
        _ ≤ tenTo j := tenTo_le_tenTo (by omega)
        _ ≤ digits := hle hne
    · split
      · rename_i htiny
        exact Or.inr (Or.inl ⟨rfl, Nat.lt_of_lt_of_le hlt (tenTo_le_tenTo (by omega))⟩)
      · left
        rw [Int.neg_neg, Int.toNat_natCast, show (-(k : Int)).toNat = 0 by omega, tenTo_zero,
          Nat.mul_one]

/-- **A fraction is finite as a double** exactly if it is not half a step beyond them. -/
theorem fits_toMagnitude_iff (digits k : Nat) :
    (toMagnitude ⟨digits, -(k : Int)⟩).fits = true ↔ digits < beyond * tenTo k := by
  have hsmall {m : Nat} (h : m < tenTo k) : m < beyond * tenTo k :=
    Nat.lt_of_lt_of_le h (Nat.le_mul_of_pos_left _ (by decide +kernel))
  rcases toMagnitude_cases digits k with h | ⟨h, hlt⟩ | ⟨h, hle⟩
  · rw [h]
    rcases Nat.eq_zero_or_pos digits with rfl | hpos
    · have hzero : (ofRatio 0 (tenTo k)).fits = true := by
        rw [fits_ofRatio]
        exact Or.inr (Or.inr (steps_of_eq (n := 0) (tenTo_pos k) (by simp)))
      exact iff_of_true hzero (hsmall (tenTo_pos k))
    · exact fits_ofRatio_iff hpos (tenTo_pos k)
  · rw [h]
    exact iff_of_true (by decide) (hsmall hlt)
  · rw [h]
    exact iff_of_false Bool.false_ne_true (Nat.not_lt.mpr hle)

/-- **A natural number is rounded to one of 53 bits**, however many places it is written with. -/
theorem exists_short_toMagnitude (hfits : n < beyond) :
    ∃ short, IsShort short ∧ (toMagnitude ⟨n * tenTo k, -(k : Int)⟩).value = short ∧
      (IsShort n → short = n) := by
  have hratio : ((n * tenTo k : ℕ) : ℚ) / tenTo k = n := by
    rw [Nat.cast_mul, mul_div_cancel_right₀]
    exact Nat.cast_ne_zero.mpr (Nat.ne_of_gt (tenTo_pos k))
  rcases toMagnitude_cases (n * tenTo k) k with h | ⟨h, hlt⟩ | ⟨_, hle⟩
  · rw [h]
    exact exists_short (tenTo_pos k) hratio
  · have hn : n = 0 := by
      refine Nat.eq_zero_of_not_pos fun hpos => ?_
      exact Nat.not_lt.mpr (Nat.le_mul_of_pos_left (tenTo k) hpos) hlt
    have hshort : IsShort 0 := isShort_of_lt (by decide)
    rw [h, hn]
    exact ⟨0, hshort, value_ofNat_of_isShort hshort, fun _ => rfl⟩
  · exact absurd (Nat.le_of_mul_le_mul_right hle (tenTo_pos k)) (Nat.not_le.mpr hfits)

end Decimal
end RangeSync.Numeric
