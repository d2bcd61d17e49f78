import RangeSync.Numeric.Decimal

/-!
# The shortest decimal of a magnitude

A double is printed with the fewest decimal digits that read back as the same double. The numbers
that read back form an interval around the magnitude, half a step wide on each side, whose ends
belong to it when the significand is even. On the grid of the multiples of a power of ten the
nearest points to the magnitude are its two neighbours, so a grid has a point in the interval
exactly when one of the two neighbours lies there. Grids are tried from the coarsest on.
-/

namespace RangeSync.Numeric

/-- The interval of the numbers that round to a magnitude, in units that divide everything by
`scale`: `value` is the magnitude, `low` and `high` are the ends. -/
structure Neighbourhood where
  scale : Nat
  low : Nat
  value : Nat
  high : Nat
  closed : Bool

namespace Neighbourhood

/-- The neighbourhood of a positive magnitude. Below a power of two the step is half as wide,
unless the exponent is already the least one. -/
def ofMagnitude (x : Magnitude) : Neighbourhood :=
  let up := twoTo x.exponent.toNat
  let m := x.significand
  let low :=
    if m = Magnitude.leadingBit ∧ Magnitude.leastExponent < x.exponent then 4 * m - 1
    else 4 * m - 2
  { scale := 4 * twoTo (-x.exponent).toNat
    low := low * up
    value := 4 * m * up
    high := (4 * m + 2) * up
    closed := m % 2 = 0 }

/-- `n * 10 ^ power` lies in the interval. -/
def has (h : Neighbourhood) (n : Nat) (power : Int) : Bool :=
  let point := n * tenTo power.toNat * h.scale
  let ten := tenTo (-power).toNat
  if h.closed then h.low * ten ≤ point && point ≤ h.high * ten
  else h.low * ten < point && point < h.high * ten

/-- The multiple of `10 ^ power` in the interval that is nearest to the value, of two at the same
distance the greater, if there is one. -/
def nearest? (h : Neighbourhood) (power : Int) : Option Nat :=
  let step := tenTo power.toNat * h.scale
  let scaled := h.value * tenTo (-power).toNat
  let below := scaled / step
  let upIsNearer := step ≤ 2 * (scaled % step)
  let above := below + 1
  match h.has below power, h.has above power with
  | true, true => some (if upIsNearer then above else below)
  | true, false => some below
  | false, true => some above
  | false, false => none

/-- The first grid with a point in the interval, from `10 ^ power` down. -/
def search (h : Neighbourhood) (power : Int) : Nat → Decimal
  | 0 => ⟨h.nearest? power |>.getD 0, power⟩
  | fuel + 1 =>
    match h.nearest? power with
    | some n => if n = 0 then search h (power - 1) fuel else ⟨n, power⟩
    | none => search h (power - 1) fuel

end Neighbourhood

/-- The number without zeros at the end of its digits. -/
def Decimal.stripped (x : Decimal) : Decimal :=
  if h : x.digits ≠ 0 ∧ x.digits % 10 = 0 then stripped ⟨x.digits / 10, x.power + 1⟩ else x
termination_by x.digits
decreasing_by exact Nat.div_lt_self (Nat.pos_of_ne_zero h.1) (by decide)

/-- **The shortest decimal** that rounds to a magnitude. Doubles lie between `10 ^ -325` and
`10 ^ 309`, so the search over the grids of these powers ends. -/
def Magnitude.shortest (x : Magnitude) : Decimal :=
  if x.significand = 0 then ⟨0, 0⟩
  else
    let top : Int := ((Text.decimal x.floor).length : Nat)
    ((Neighbourhood.ofMagnitude x).search top 700).stripped

end RangeSync.Numeric
