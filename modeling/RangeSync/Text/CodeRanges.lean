import RangeSync.Text.Hex
import RangeSync.Text.Blank
import RangeSync.Text.Cut

/-!
# Sets of code points

A set of code points is kept as a list of closed intervals, and a table of a character property
is written as a text of hexadecimal numbers and intervals with blanks between them:
`7f-a0 ad 378-379`.
-/

namespace RangeSync.Text

/-- The number that hexadecimal digits spell; characters that are no digits count as zero. -/
def hexValueOf (digits : List Char) : Nat :=
  digits.foldl (fun n c => n * 16 + (hexValue? c).getD 0) 0

/-- The interval that one field of a table writes. -/
def readRange (field : List Char) : Nat × Nat :=
  match fields '-' field with
  | [first, last] => (hexValueOf first, hexValueOf last)
  | _ => (hexValueOf field, hexValueOf field)

/-- The intervals of a table. -/
def readRanges (table : String) : List (Nat × Nat) :=
  (words table.toList).map readRange

/-- The code point lies in one of the intervals. -/
def inRanges (ranges : List (Nat × Nat)) (n : Nat) : Bool :=
  ranges.any fun r => r.1 ≤ n && n ≤ r.2

end RangeSync.Text
