import RangeSync.Text.Digits
import RangeSync.Text.Blank
import RangeSync.Numeric.Binary64

/-!
# Reading decimal fractions

A decimal fraction is digits with at most one point among them, and possibly a power of ten. It is
read exactly, as an integer and a power of ten, and then rounded once to a magnitude. The power is
compared with the range of the doubles before it is ever multiplied out, so a short text cannot
ask for an enormous number.
-/

namespace RangeSync.Numeric

open RangeSync.Text

/-- The number `digits * 10 ^ power`. -/
structure Decimal where
  /-- The digits, as an integer. -/
  digits : Nat
  /-- The power of ten that they are multiplied by. -/
  power : Int
deriving DecidableEq, Repr

namespace Decimal

/-- A power of ten at which every nonzero integer is beyond the doubles. -/
def hugePower : Int := 400

/-- The magnitude nearest to the number, or a magnitude beyond the doubles if the number is. The
number of digits is an upper bound of the integer's size, so a number whose last digit stands far
below the least magnitude is zero. -/
def toMagnitude (x : Decimal) : Magnitude :=
  let places : Int := ((decimal x.digits).length : Nat)
  if x.digits = 0 then Magnitude.ofNat 0
  else if hugePower < x.power + places then
    ⟨Magnitude.leadingBit, Magnitude.greatestExponent + 1⟩
  else if x.power + places < -hugePower then Magnitude.ofNat 0
  else Magnitude.ofRatio (x.digits * tenTo x.power.toNat) (tenTo (-x.power).toNat)

/-- The digits of a fraction and how many of them stand after the point; the rest of the text
follows. -/
def readFraction (s : List Char) : List Char × Nat × List Char :=
  let whole := s.takeWhile isDigit
  match s.dropWhile isDigit with
  | '.' :: rest =>
    let places := rest.takeWhile isDigit
    (whole ++ places, places.length, rest.dropWhile isDigit)
  | rest => (whole, 0, rest)

/-- The power of ten that a text spells: a sign, which may be missing, and digits. -/
def power? (s : List Char) : Option Int :=
  match s with
  | '-' :: rest => (numeral? rest).map fun n => -(n : Int)
  | '+' :: rest => (numeral? rest).map fun n => (n : Int)
  | _ => (numeral? s).map fun n => (n : Int)

/-- The decimal fraction that the whole text spells: digits with at most one point, at least one
digit among them, and then nothing or `e` and a power. -/
def read? (s : List Char) : Option Decimal :=
  match readFraction s with
  | ([], _, _) => none
  | (digits, places, []) => some ⟨valueOf digits, -(places : Int)⟩
  | (digits, places, e :: rest) =>
    if e == 'e' || e == 'E' then
      (power? rest).map fun power => ⟨valueOf digits, power - (places : Int)⟩
    else none

end Decimal

/-- The magnitude or special value that an unsigned text spells. -/
def Binary64.readUnsigned? (negative : Bool) (s : List Char) : Option Binary64 :=
  match String.ofList (lowered s) with
  | "inf" => some (.infinite negative)
  | "infinity" => some (.infinite negative)
  | "nan" => some .nan
  | _ => (Decimal.read? s).map fun x => .ofMagnitude negative x.toMagnitude

/-- The double that a text spells: a sign, which may be missing, and then a decimal fraction or the
name of a special value in any case. -/
def Binary64.read? (s : List Char) : Option Binary64 :=
  match s with
  | '-' :: rest => readUnsigned? true rest
  | '+' :: rest => readUnsigned? false rest
  | _ => readUnsigned? false s

end RangeSync.Numeric
