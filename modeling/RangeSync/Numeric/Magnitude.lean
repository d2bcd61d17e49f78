import RangeSync.Numeric.Powers

/-!
# Magnitudes: numbers of 53 significant bits

Fractions of progress, byte sizes with a decimal point and floating point settings are computed
in IEEE 754 double precision. The library does that arithmetic exactly, on natural numbers: a
*magnitude* is `significand * 2 ^ exponent`, and every operation takes the exact rational result
and rounds it once, to the nearest magnitude, a tie to the even significand. Magnitudes have no
upper end; `Magnitude.fits` says whether one is a finite double.
-/

namespace RangeSync.Numeric

/-- The quotient rounded to the nearest natural number, a tie to the even one. -/
def divNearestEven (num den : Nat) : Nat :=
  let quotient := num / den
  let rest := num % den
  if 2 * rest < den then quotient
  else if den < 2 * rest then quotient + 1
  else quotient + quotient % 2

/-- The quotient rounded to the nearest natural number, a tie upwards. -/
def divNearestUp (num den : Nat) : Nat :=
  (2 * num + den) / (2 * den)

/-- A nonnegative number `significand * 2 ^ exponent`. -/
structure Magnitude where
  /-- At most 53 bits, and exactly 53 unless the exponent is the least one. -/
  significand : Nat
  /-- At least `-1074`. -/
  exponent : Int
deriving DecidableEq, Repr

namespace Magnitude

/-- The greatest power of two in a significand of 53 bits. -/
def leadingBit : Nat := 0x10000000000000

/-- The least exponent; magnitudes of this exponent may have fewer than 53 bits. -/
def leastExponent : Int := -1074

/-- The greatest exponent of a finite double. -/
def greatestExponent : Int := 971

/-- The numerator of the magnitude as a fraction. -/
def num (x : Magnitude) : Nat :=
  x.significand * twoTo x.exponent.toNat

/-- The denominator of the magnitude as a fraction. -/
def den (x : Magnitude) : Nat :=
  twoTo (-x.exponent).toNat

/-- The exponent that leaves 53 bits before the point of `num / den`, or the least one. -/
def exponentOf (num den : Nat) : Int :=
  let guess : Int := (num.log2 : Int) - (den.log2 : Int) - 53
  let wide := num * twoTo (-guess).toNat ≥ 2 * leadingBit * (den * twoTo guess.toNat)
  max leastExponent (if wide then guess + 1 else guess)

/-- **Rounding**: the magnitude nearest to `num / den`, a tie to the even significand. -/
def ofRatio (num den : Nat) : Magnitude :=
  let exponent := exponentOf num den
  let significand := divNearestEven (num * twoTo (-exponent).toNat) (den * twoTo exponent.toNat)
  if significand = 0 then ⟨0, leastExponent⟩
  else if significand = 2 * leadingBit then ⟨leadingBit, exponent + 1⟩
  else ⟨significand, exponent⟩

/-- The magnitude nearest to a natural number. -/
def ofNat (n : Nat) : Magnitude :=
  ofRatio n 1

/-- The rounded product. -/
def mul (x y : Magnitude) : Magnitude :=
  ofRatio (x.num * y.num) (x.den * y.den)

/-- The rounded quotient. -/
def div (x y : Magnitude) : Magnitude :=
  ofRatio (x.num * y.den) (x.den * y.num)

/-- The order of the numbers. -/
def le (x y : Magnitude) : Bool :=
  x.num * y.den ≤ y.num * x.den

/-- The smaller of two magnitudes. -/
def min (x y : Magnitude) : Magnitude :=
  if le x y then x else y

/-- The greatest natural number that is not above the magnitude. -/
def floor (x : Magnitude) : Nat :=
  x.num / x.den

/-- The nearest natural number, a half going up. -/
def round (x : Magnitude) : Nat :=
  divNearestUp x.num x.den

/-- The magnitude is below the bound of the finite doubles. -/
def fits (x : Magnitude) : Bool :=
  x.exponent ≤ greatestExponent

/-- The magnitude has a place after the point, the exact value rounded to the nearest tenth and a
tie to the even digit. -/
def tenths (x : Magnitude) : Nat :=
  divNearestEven (x.num * 10) x.den

end Magnitude
end RangeSync.Numeric
