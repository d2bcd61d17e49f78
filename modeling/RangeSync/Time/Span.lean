import RangeSync.Text.Blank
import RangeSync.Text.Digits

/-!
# Spans of time

A timeout is written as an expression over amounts of time: `1h 30m`, `3m + 29ms`, `1m * 10`. An
amount is a number and a unit, seconds if there is none. Amounts that follow each other, with or
without a plus sign, are added; amounts joined by `*` are multiplied as numbers of seconds; the two
do not mix. Everything is exact in nanoseconds and has to stay below `2 ^ 64` of them.
-/

namespace RangeSync.Time

open RangeSync.Text

/-- A length of time. -/
structure Span where
  /-- Its whole number of nanoseconds. -/
  nanoseconds : Nat
deriving DecidableEq, Repr

namespace Span

/-- Nanoseconds in a second. -/
def perSecond : Nat := 1000000000

/-- A whole number of seconds. -/
def ofSeconds (n : Nat) : Span :=
  ⟨n * perSecond⟩

/-- The whole seconds of a span. -/
def seconds (t : Span) : Nat :=
  t.nanoseconds / perSecond

/-- The nanoseconds beyond the whole seconds. -/
def subsecond (t : Span) : Nat :=
  t.nanoseconds % perSecond

/-- Spans are kept below this many nanoseconds. -/
def bound : Nat := UInt64.size

/-- Nanoseconds in the unit that a lowercase word names. A month has 30 days and a year 365. -/
def unit? : String → Option Nat
  | "y" | "year" => some (365 * 86400 * perSecond)
  | "mon" | "month" => some (30 * 86400 * perSecond)
  | "w" | "week" => some (7 * 86400 * perSecond)
  | "d" | "day" => some (86400 * perSecond)
  | "h" | "hr" | "hour" => some (3600 * perSecond)
  | "m" | "min" | "minute" => some (60 * perSecond)
  | "s" | "sec" | "second" => some perSecond
  | "ms" | "msec" | "millisecond" => some 1000000
  | "us" | "µs" | "usec" | "µsec" | "usecond" | "µsecond" | "microsecond" => some 1000
  | "ns" | "nsec" | "nanosecond" => some 1
  | _ => none

/-- The character may stand in the name of a unit. -/
def inUnit (c : Char) : Bool :=
  c.isAlpha || c == 'µ'

/-- The character may stand between amounts. -/
def isGap (c : Char) : Bool :=
  c == ' ' || c == '\t' || c == '\r' || c == '\n'

/-- The two ways to join amounts. -/
inductive Join
  | sum | product
deriving DecidableEq, Repr

/-- The join in front of an amount, and the text after it. No sign means a sum. -/
def readJoin (s : List Char) : Join × List Char :=
  match s.dropWhile isGap with
  | '+' :: rest => (.sum, rest)
  | '*' :: rest => (.product, rest)
  | rest => (.sum, rest)

/-- A number without a unit is complete at the end of the text and before a sign only. -/
def mayEndHere (s : List Char) : Bool :=
  match s.dropWhile isGap with
  | [] => true
  | c :: _ => c == '+' || c == '*'

/-- The nanoseconds that a number of a unit makes, if they are below the bound. -/
def amount? (number : Nat) (unit : Nat) : Option Nat :=
  if number < bound ∧ number * unit < bound then some (number * unit) else none

/-- The amount at the beginning of the text and the text after it. -/
def readAmount (s : List Char) : Option (Nat × List Char) :=
  let digits := s.takeWhile isDigit
  let rest := s.dropWhile isDigit
  let name := rest.takeWhile inUnit
  let after := rest.dropWhile inUnit
  if digits.isEmpty then none
  else if name.isEmpty then
    if mayEndHere rest then (amount? (valueOf digits) perSecond).map (·, rest) else none
  else do
    let unit ← unit? (String.ofList (lowered name))
    let value ← amount? (valueOf digits) unit
    pure (value, after)

/-- The amounts after the first one, each with its join. Every amount takes up a digit at least,
so the number of characters bounds the number of steps. -/
def readMore : Nat → List Char → Option (List (Join × Nat))
  | _, [] => some []
  | 0, _ :: _ => none
  | fuel + 1, s => do
    let (join, rest) := readJoin s
    let (value, after) ← readAmount (rest.dropWhile isGap)
    let more ← readMore fuel after
    pure ((join, value) :: more)

/-- The number, if it is below the bound. -/
def bounded? (n : Nat) : Option Nat :=
  if n < bound then some n else none

/-- The sum of a list of amounts, if it stays below the bound. -/
def sum? (first : Nat) (more : List Nat) : Option Nat :=
  more.foldlM (fun total x => bounded? (total + x)) first

/-- The product of a list of amounts in seconds, if it stays below the bound. The factors after the
first are multiplied first, and each product is cut to whole nanoseconds. -/
def product? (first : Nat) (more : List Nat) : Option Nat := do
  let factor ← more.foldlM (fun total x => bounded? (total * x / perSecond)) perSecond
  bounded? (first * factor / perSecond)

/-- **Reading a span**: amounts that are all added or all multiplied, blanks around them dropped. -/
def read? (text : String) : Option Span := do
  let s := trim text.toList
  let (first, rest) ← readAmount s
  let more ← readMore rest.length rest
  let values := more.map (·.2)
  if more.all (·.1 == .sum) then (sum? first values).map Span.mk
  else if more.all (·.1 == .product) then (product? first values).map Span.mk
  else none

/-- A whole number and the digits of a fraction of `1 / scale`, without zeros at the end. -/
def fractional (whole part scale : Nat) (unit : String) : String :=
  let width := (decimal scale).length - 1
  let places := dropEndWhile (· == '0') (padded width part).toList
  if places.isEmpty then decimal whole ++ unit
  else decimal whole ++ "." ++ String.ofList places ++ unit

/-- A span in the greatest of the units s, ms, µs and ns that is not above it. -/
def toText (t : Span) : String :=
  let n := t.nanoseconds
  if perSecond ≤ n then fractional (n / perSecond) (n % perSecond) perSecond "s"
  else if 1000000 ≤ n then fractional (n / 1000000) (n % 1000000) 1000000 "ms"
  else if 1000 ≤ n then fractional (n / 1000) (n % 1000) 1000 "µs"
  else decimal n ++ "ns"

end Span
end RangeSync.Time
