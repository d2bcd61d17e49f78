import RangeSync.Numeric.Shortest

/-!
# Printed doubles

Log lines print a double by its shortest decimal. Between `10 ^ -4` and `10 ^ 16` the digits stand
around a point, with at least one digit on each side; outside that range one digit stands before
the point and a power of ten follows. A percentage is printed with one place after the point.
-/

namespace RangeSync.Numeric

open RangeSync.Text

namespace Decimal

/-- The power of ten of the first digit. -/
def leading (x : Decimal) : Int :=
  ((decimal x.digits).length : Nat) - 1 + x.power

/-- The digits around a point, at least one on each side. -/
def positional (x : Decimal) : String :=
  if 0 ≤ x.power then decimal (x.digits * tenTo x.power.toNat) ++ ".0"
  else
    let places := (-x.power).toNat
    let scale := tenTo places
    decimal (x.digits / scale) ++ "." ++ padded places (x.digits % scale)

/-- The first digit, a point before the others if there are any. -/
def significand (x : Decimal) : String :=
  match (decimal x.digits).toList with
  | [] => ""
  | [d] => String.ofList [d]
  | d :: rest => String.ofList (d :: '.' :: rest)

/-- An integer with a minus sign if it is negative. -/
def signedText (n : Int) : String :=
  if n < 0 then "-" ++ decimal n.natAbs else decimal n.natAbs

/-- The significand and the power of ten. -/
def scientific (x : Decimal) : String :=
  x.significand ++ "e" ++ signedText x.leading

end Decimal

/-- The printed form of a double in a log line. -/
def Binary64.toText : Binary64 → String
  | .nan => "NaN"
  | .infinite negative => if negative then "-inf" else "inf"
  | .finite negative size =>
    let x := size.shortest
    let body :=
      if size.significand = 0 then "0.0"
      else if -4 ≤ x.leading ∧ x.leading < 16 then x.positional else x.scientific
    if negative then "-" ++ body else body

/-- A number of tenths with one place after the point. -/
def tenthsText (n : Nat) : String :=
  decimal (n / 10) ++ "." ++ decimal (n % 10)

end RangeSync.Numeric
