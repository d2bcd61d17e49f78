import RangeSync.Numeric.Magnitude

/-!
# Double precision numbers

A double is a sign with a finite magnitude, an infinity, or not a number. `Binary64.toBits` is the
interchange format: one bit of sign, eleven of exponent, fifty-two of significand.
-/

namespace RangeSync.Numeric

/-- A double precision number. -/
inductive Binary64
  /-- A sign and a magnitude below the bound. -/
  | finite (negative : Bool) (size : Magnitude)
  /-- Beyond the bound. -/
  | infinite (negative : Bool)
  /-- Not a number. -/
  | nan
deriving DecidableEq, Repr

namespace Binary64

/-- The signed magnitude, infinite if it does not fit. -/
def ofMagnitude (negative : Bool) (size : Magnitude) : Binary64 :=
  if size.fits then .finite negative size else .infinite negative

/-- The bit of the sign in the interchange format. -/
def signBit (negative : Bool) : Nat :=
  if negative then 0x8000000000000000 else 0

/-- The interchange format as a natural number below `2 ^ 64`. -/
def toBits : Binary64 → Nat
  | .finite negative size =>
    signBit negative +
      (if size.significand < Magnitude.leadingBit then size.significand
       else (size.exponent + 1074).toNat * Magnitude.leadingBit + size.significand)
  | .infinite negative => signBit negative + 2047 * Magnitude.leadingBit
  | .nan => 2047 * Magnitude.leadingBit + Magnitude.leadingBit / 2

end Binary64
end RangeSync.Numeric
