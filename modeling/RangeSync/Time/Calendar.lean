/-!
# Days of the calendar

Days are counted from the first of January 1970, in the Gregorian calendar extended to all years.
The count is the sum of the days of the years, months and days before it, so that nothing but the
rule for leap years has to be known.
-/

namespace RangeSync.Time

/-- A moment: seconds since 1970, and nanoseconds that count upwards from there. -/
structure Instant where
  seconds : Int
  nanoseconds : Nat
deriving DecidableEq, Repr

/-- The year has 366 days. -/
def isLeapYear (year : Nat) : Bool :=
  year % 4 == 0 && (year % 100 != 0 || year % 400 == 0)

/-- How many days a month has, months counted from one. -/
def daysInMonth (year month : Nat) : Nat :=
  match month with
  | 2 => if isLeapYear year then 29 else 28
  | 4 | 6 | 9 | 11 => 30
  | _ => 31

/-- How many leap years there are before a year, from year zero on. -/
def leapYearsBefore (year : Nat) : Nat :=
  (year + 3) / 4 - (year + 99) / 100 + (year + 399) / 400

/-- The days from the first day of year zero to the first day of a year. -/
def daysBeforeYear (year : Nat) : Nat :=
  365 * year + leapYearsBefore year

/-- The days of a year before the first day of a month. -/
def daysBeforeMonth (year month : Nat) : Nat :=
  (List.range (month - 1)).foldl (fun days m => days + daysInMonth year (m + 1)) 0

/-- The days from the first of January 1970 to a date. -/
def dayNumber (year month day : Nat) : Int :=
  ((daysBeforeYear year + daysBeforeMonth year month + (day - 1) : Nat) : Int) -
    ((daysBeforeYear 1970 : Nat) : Int)

/-- The date exists. -/
def isDate (year month day : Nat) : Bool :=
  1 ≤ month && month ≤ 12 && 1 ≤ day && day ≤ daysInMonth year month

/-- The day of the week, from zero for Monday; the first of January 1970 was a Thursday. -/
def weekday (dayNumber : Int) : Nat :=
  ((dayNumber + 3) % 7).toNat

end RangeSync.Time
