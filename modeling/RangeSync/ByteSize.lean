import RangeSync.Text.Blank
import RangeSync.Text.Quoted
import RangeSync.Numeric.Decimal

/-!
# Byte sizes

A setting that counts bytes is written as a number with a unit: `64kb`, `1.5 mb`, `4096`. The units
are powers of 1024, and a size is printed in the largest unit that divides it, so that the printed
number is exact. Numbers are read in double precision, since they may have a point.
-/

namespace RangeSync

open Text Numeric

/-- A count of bytes below `2 ^ 64`. -/
structure ByteSize where
  /-- How many bytes. -/
  count : UInt64
deriving DecidableEq, Repr

/-- The units of a byte size. -/
inductive ByteUnit
  | byte | kilo | mega | giga | tera
deriving DecidableEq, Repr

namespace ByteUnit

/-- How many bytes one unit has. -/
def factor : ByteUnit → Nat
  | .byte => 1
  | .kilo => 1024
  | .mega => 1024 * 1024
  | .giga => 1024 * 1024 * 1024
  | .tera => 1024 * 1024 * 1024 * 1024

/-- The name of the unit in printed sizes. -/
def name : ByteUnit → String
  | .byte => "b"
  | .kilo => "kb"
  | .mega => "mb"
  | .giga => "gb"
  | .tera => "tb"

/-- The units from the greatest down. -/
def descending : List ByteUnit := [.tera, .giga, .mega, .kilo, .byte]

/-- The unit that a lowercase word names. The `b` of a greater unit may be left out, and no word at
all means bytes. -/
def ofName? : String → Option ByteUnit
  | "" => some .byte
  | "b" => some .byte
  | "k" => some .kilo
  | "kb" => some .kilo
  | "m" => some .mega
  | "mb" => some .mega
  | "g" => some .giga
  | "gb" => some .giga
  | "t" => some .tera
  | "tb" => some .tera
  | _ => none

end ByteUnit

namespace ByteSize

/-- The greatest count. -/
def limit : Nat := UInt64.size - 1

/-- The size of `n` bytes, at most the greatest count. -/
def saturating (n : Nat) : ByteSize :=
  ⟨UInt64.ofNat (min n limit)⟩

/-- The character belongs to the number of a byte size. -/
def inNumber (c : Char) : Bool :=
  isDigit c || c == '.'

/-- The finite magnitude that the digits and the point of a byte size spell. -/
def number? (s : List Char) : Option Magnitude :=
  ((Decimal.read? s).map Decimal.toMagnitude).filter Magnitude.fits

/-- **Reading a byte size**: blanks around it are dropped, letters count in either case, and the
number is multiplied by its unit in double precision and rounded to the nearest count, a half
going up. A product beyond the greatest count is the greatest count. -/
def read? (text : String) : Option ByteSize :=
  let s := lowered (trim text.toList)
  let unit := trim (s.dropWhile inNumber)
  match ByteUnit.ofName? (String.ofList unit), number? (s.takeWhile inNumber) with
  | some unit, some number =>
    some (saturating (number.mul (Magnitude.ofNat unit.factor)).round)
  | _, _ => none

/-- The unit a size is printed in: the greatest one that divides it and is not above it. -/
def unit (size : ByteSize) : ByteUnit :=
  (ByteUnit.descending.find? fun u =>
    u.factor ≤ size.count.toNat && size.count.toNat % u.factor == 0).getD .byte

/-- The printed form of a size. -/
def toText (size : ByteSize) : String :=
  decimal (size.count.toNat / size.unit.factor) ++ size.unit.name

/-- What is said of a text that is no byte size. -/
def rejection (text : String) : String :=
  "invalid byte size " ++ quoted text

/-- The byte size that a text spells, or what is said of the text. -/
def parse (text : String) : Except String ByteSize :=
  match read? text with
  | some size => .ok size
  | none => .error (rejection text)

end ByteSize
end RangeSync
