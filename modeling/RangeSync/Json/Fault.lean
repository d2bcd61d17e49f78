import RangeSync.Numeric.Fixed
import RangeSync.Text.Quoted

/-!
# What can be wrong with a JSON text

A reader of JSON stops at the first fault and says what it is and where: the line, and the number
of bytes of that line before the place. A fault is made with the number of bytes that are still
unread; the place is worked out from the whole text at the end.
-/

namespace RangeSync.Json

open Text Numeric

/-- A number as it is read: a natural number below `2 ^ 64`, a negative number of 64 bits, or a
double. -/
inductive Number
  | natural (n : Nat)
  /-- The number less than zero of the given size. -/
  | negative (size : Nat)
  | floating (x : Binary64)
deriving DecidableEq, Repr

/-- What stands in the place of something else. -/
inductive Found
  | null
  | bool (b : Bool)
  | number (n : Number)
  | string (s : String)
  | list
  | object
deriving DecidableEq, Repr

/-- A double in a message: positional from `10 ^ -5` to `10 ^ 16`, otherwise with a power of ten of
a sign and at least two digits. -/
def floatText : Binary64 → String
  | .nan => "NaN"
  | .infinite negative => if negative then "-inf" else "inf"
  | .finite negative size =>
    let x := size.shortest
    let power := (if x.leading < 0 then "-" else "+") ++ padded 2 x.leading.natAbs
    let body :=
      if size.significand = 0 then "0.0"
      else if -5 ≤ x.leading ∧ x.leading < 16 then x.positional
      else x.significand ++ "e" ++ power
    if negative then "-" ++ body else body

/-- The wording of what stands there. -/
def Found.describe : Found → String
  | .null => "null"
  | .bool b => if b then "boolean `true`" else "boolean `false`"
  | .number (.natural n) => "integer `" ++ decimal n ++ "`"
  | .number (.negative n) => "integer `-" ++ decimal n ++ "`"
  | .number (.floating x) => "floating point `" ++ floatText x ++ "`"
  | .string s => "string " ++ quoted s
  | .list => "sequence"
  | .object => "map"

/-- A reason to refuse a text. -/
inductive Reason
  | endInList | endInObject | endInString | endInValue
  | expectedColon | expectedListEnd | expectedObjectEnd | expectedName | expectedValue
  | invalidEscape | invalidNumber | numberOutOfRange | controlCharacter | keyNotString
  | loneSurrogate | trailingComma | trailingCharacters | shortEscape
  /-- Another kind of value is expected. -/
  | wrongType (found : Found) (expected : String)
  /-- Another value of the same kind is expected. -/
  | wrongValue (found : Found) (expected : String)
  /-- A list of another length is expected. -/
  | wrongLength (length : Nat) (expected : String)
  | duplicateField (name : String)
deriving DecidableEq, Repr

/-- The wording of a reason. -/
def Reason.message : Reason → String
  | .endInList => "EOF while parsing a list"
  | .endInObject => "EOF while parsing an object"
  | .endInString => "EOF while parsing a string"
  | .endInValue => "EOF while parsing a value"
  | .expectedColon => "expected `:`"
  | .expectedListEnd => "expected `,` or `]`"
  | .expectedObjectEnd => "expected `,` or `\x7d`"
  | .expectedName => "expected ident"
  | .expectedValue => "expected value"
  | .invalidEscape => "invalid escape"
  | .invalidNumber => "invalid number"
  | .numberOutOfRange => "number out of range"
  | .controlCharacter => "control character (\\u0000-\\u001F) found while parsing a string"
  | .keyNotString => "key must be a string"
  | .loneSurrogate => "lone leading surrogate in hex escape"
  | .trailingComma => "trailing comma"
  | .trailingCharacters => "trailing characters"
  | .shortEscape => "unexpected end of hex escape"
  | .wrongType found expected => "invalid type: " ++ found.describe ++ ", expected " ++ expected
  | .wrongValue found expected => "invalid value: " ++ found.describe ++ ", expected " ++ expected
  | .wrongLength length expected =>
    "invalid length " ++ decimal length ++ ", expected " ++ expected
  | .duplicateField name => "duplicate field `" ++ name ++ "`"

/-- A reason, and how many bytes of the text come after the place it stands for. -/
structure Fault where
  reason : Reason
  unread : Nat
deriving DecidableEq, Repr

/-- A reader takes the rest of a text and returns what it read with the text after it. -/
abbrev Reader (α : Type) := List Char → Except Fault (α × List Char)

/-- How many bytes a text has. -/
def byteLength (s : List Char) : Nat :=
  s.foldr (fun c count => c.utf8Size + count) 0

/-- A fault at the beginning of the rest. -/
def failHere {α : Type} (reason : Reason) (rest : List Char) : Except Fault α :=
  .error ⟨reason, byteLength rest⟩

/-- A fault one byte into the rest, or at the end of the text. -/
def failAfter {α : Type} (reason : Reason) (rest : List Char) : Except Fault α :=
  .error ⟨reason, byteLength rest - 1⟩

/-- The line of a place, counted from one, and how many bytes of that line are before it; the place
is given by the number of bytes before it. -/
def place (before : Nat) (bytes : List Char) : Nat × Nat :=
  go 1 0 before bytes
where
  /-- The place after `left` more bytes, from a place on. -/
  go (line column left : Nat) : List Char → Nat × Nat
    | [] => (line, column)
    | c :: rest =>
      if left < c.utf8Size then (line, column + left)
      else if c = '\n' then go (line + 1) 0 (left - 1) rest
      else go line (column + c.utf8Size) (left - c.utf8Size) rest

/-- The wording of a fault in a text. -/
def Fault.message (fault : Fault) (whole : List Char) : String :=
  let (line, column) := place (byteLength whole - fault.unread) whole
  fault.reason.message ++ " at line " ++ decimal line ++ " column " ++ decimal column

end RangeSync.Json
