import RangeSync.Json.Fault

/-!
# The parts of a JSON text

Blanks, names, numbers and strings. A number that does not fit its 64 bits becomes a double: its
digits are collected as long as they fit, and the number they make is multiplied or divided by a
power of ten, with one rounding each.
-/

namespace RangeSync.Json

open Text Numeric

/-- The blanks of JSON. -/
def isGap (c : Char) : Bool :=
  c == ' ' || c == '\n' || c == '\t' || c == '\r'

/-- The rest without the blanks at its beginning. -/
def skipGap (s : List Char) : List Char :=
  s.dropWhile isGap

/-- The rest after a name, of which the first letter has been read already. -/
def readName : List Char → List Char → Except Fault (List Char)
  | [], s => .ok s
  | _ :: _, [] => failHere .endInValue []
  | c :: name, d :: rest =>
    if d = c then readName name rest else failAfter .expectedName (d :: rest)

/-! ### Numbers -/

/-- The bound of the natural numbers that stay exact. -/
def wordBound : Nat := UInt64.size

/-- The greatest size of a negative number that stays exact. -/
def negativeBound : Nat := 0x8000000000000000

/-- The greatest power of ten that a double is multiplied or divided by at once. -/
def greatestPower : Nat := 308

/-- The magnitude divided by a power of ten, in steps of the greatest one. -/
def scaledDown (x : Magnitude) (power : Nat) : Magnitude :=
  if power ≤ greatestPower then x.div (.ofNat (tenTo power))
  else if x.significand = 0 then x
  else scaledDown (x.div (.ofNat (tenTo greatestPower))) (power - greatestPower)
termination_by power
decreasing_by simp only [greatestPower] at *; omega

/-- The double of a sign, collected digits and a power of ten. One that is too great is refused. -/
def floating (negative : Bool) (digits : Nat) (power : Int) (rest : List Char) :
    Except Fault (Number × List Char) :=
  let start := Magnitude.ofNat digits
  if power < 0 then
    .ok (.floating (.finite negative (scaledDown start (-power).toNat)), rest)
  else if digits = 0 then .ok (.floating (.finite negative start), rest)
  else if greatestPower < power.toNat then failHere .numberOutOfRange rest
  else
    let size := start.mul (.ofNat (tenTo power.toNat))
    if size.fits then .ok (.floating (.finite negative size), rest)
    else failHere .numberOutOfRange rest

/-- The bound of the powers of ten that are read to their end. -/
def powerBound : Nat := 0x80000000

/-- The digits of a power of ten after its first: the power, unless it reaches the bound, and the
rest after the digit that decided it. -/
def powerDigits (power : Nat) : List Char → Option Nat × List Char
  | [] => (some power, [])
  | c :: rest =>
    if isDigit c then
      let next := power * 10 + digitValue c
      if next < powerBound then powerDigits next rest else (none, rest)
    else (some power, c :: rest)

/-- The number after the letter that begins its power of ten. -/
def readPower (negative : Bool) (digits : Nat) (power : Int) (s : List Char) :
    Except Fault (Number × List Char) :=
  let (down, s) := match s with
    | '+' :: rest => (false, rest)
    | '-' :: rest => (true, rest)
    | _ => (false, s)
  match s with
  | [] => failHere .endInValue []
  | c :: rest =>
    if !isDigit c then failAfter .invalidNumber (c :: rest)
    else
      match powerDigits (digitValue c) rest with
      | (some n, rest) =>
        floating negative digits (if down then power - (n : Int) else power + (n : Int)) rest
      | (none, rest) =>
        if digits ≠ 0 ∧ !down then failHere .numberOutOfRange rest
        else .ok (.floating (.finite negative (.ofNat 0)), rest.dropWhile isDigit)

/-- The digits collected as long as they fit a word, how many digits were collected, and the rest
after all digits with how many were left out. -/
def collect (digits : Nat) (taken : Nat) : List Char → Nat × Nat × Nat × List Char
  | [] => (digits, taken, 0, [])
  | c :: rest =>
    if isDigit c then
      let next := digits * 10 + digitValue c
      if next < wordBound then collect next (taken + 1) rest
      else
        let left := (c :: rest).takeWhile isDigit
        (digits, taken, left.length, (c :: rest).dropWhile isDigit)
    else (digits, taken, 0, c :: rest)

/-- The number after its point. -/
def readPlaces (negative : Bool) (digits : Nat) (power : Int) (s : List Char) :
    Except Fault (Number × List Char) :=
  match s with
  | [] => failHere .endInValue []
  | c :: _ =>
    if !isDigit c then failAfter .invalidNumber s
    else
      let (digits, taken, _, rest) := collect digits 0 s
      let power := power - (taken : Int)
      match rest with
      | 'e' :: rest => readPower negative digits power rest
      | 'E' :: rest => readPower negative digits power rest
      | _ => floating negative digits power rest

/-- The number of a sign and collected digits, if nothing more belongs to it. A negative number has
to fit a signed word, and there is no negative zero among the exact numbers. -/
def exact (negative : Bool) (digits : Nat) : Number :=
  if !negative then .natural digits
  else if digits = 0 ∨ negativeBound < digits then .floating (.finite true (.ofNat digits))
  else .negative digits

/-- The number whose digits before the point have been collected, with the rest after them and the
number of digits left out. -/
def readTail (negative : Bool) (digits left : Nat) (s : List Char) :
    Except Fault (Number × List Char) :=
  match s with
  | '.' :: rest => readPlaces negative digits left rest
  | 'e' :: rest => readPower negative digits left rest
  | 'E' :: rest => readPower negative digits left rest
  | _ => if left = 0 then .ok (exact negative digits, s) else floating negative digits left s

/-- A number after its sign. -/
def readUnsigned (negative : Bool) : Reader Number := fun s =>
  match s with
  | [] => failHere .endInValue []
  | c :: rest =>
    if !isDigit c then failAfter .invalidNumber s
    else if c = '0' then
      match rest with
      | d :: _ => if isDigit d then failAfter .invalidNumber rest else readTail negative 0 0 rest
      | [] => readTail negative 0 0 rest
    else
      let (digits, _, left, rest) := collect (digitValue c) 1 rest
      readTail negative digits left rest

/-- A number; the rest begins with its sign or its first digit. -/
def readNumber : Reader Number := fun s =>
  match s with
  | '-' :: rest => readUnsigned true rest
  | _ => readUnsigned false s

/-! ### Strings -/

/-- The value of four hexadecimal digits at the beginning of the rest. -/
def readHex : Reader Nat := fun s =>
  if byteLength s < 4 then .error ⟨.endInString, 0⟩
  else
    match s with
    | a :: b :: c :: d :: rest =>
      match hexValue? a, hexValue? b, hexValue? c, hexValue? d with
      | some a, some b, some c, some d => .ok (((a * 16 + b) * 16 + c) * 16 + d, rest)
      | _, _, _, _ => .error ⟨.invalidEscape, byteLength s - 4⟩
    | _ => .error ⟨.invalidEscape, byteLength s - 4⟩

/-- The character that a letter after a backslash stands for. -/
def escaped? (c : Char) : Option Char :=
  match c with
  | '"' => some '"'
  | '\\' => some '\\'
  | '/' => some '/'
  | 'b' => some '\x08'
  | 'f' => some '\x0c'
  | 'n' => some '\n'
  | 'r' => some '\r'
  | 't' => some '\t'
  | _ => none

/-- The given character has to come next. -/
def expectInEscape (c : Char) (s : List Char) : Except Fault (List Char) :=
  match s with
  | [] => failHere .endInString []
  | d :: rest => if d = c then .ok rest else failAfter .shortEscape s

/-- The character whose number follows. One beyond the first plane is written as two numbers. -/
def readNumbered : Reader Char := fun s => do
  let (n, s) ← readHex s
  if 0xDC00 ≤ n ∧ n ≤ 0xDFFF then failHere .loneSurrogate s
  else if 0xD800 ≤ n ∧ n ≤ 0xDBFF then
    let s ← expectInEscape '\\' s
    let s ← expectInEscape 'u' s
    let (m, s) ← readHex s
    if 0xDC00 ≤ m ∧ m ≤ 0xDFFF then
      .ok (Char.ofNat ((n - 0xD800) * 0x400 + (m - 0xDC00) + 0x10000), s)
    else failHere .loneSurrogate s
  else .ok (Char.ofNat n, s)

/-- The character after a backslash. -/
def readEscape : Reader Char := fun s =>
  match s with
  | [] => failHere .endInString []
  | 'u' :: rest => readNumbered rest
  | c :: rest =>
    match escaped? c with
    | some d => .ok (d, rest)
    | none => failAfter .invalidEscape s

/-- Pass over what follows a backslash; the number of a character is not looked at. -/
def skipEscape (s : List Char) : Except Fault (List Char) :=
  match s with
  | [] => failHere .endInString []
  | 'u' :: rest => (readHex rest).map (·.2)
  | c :: rest => if (escaped? c).isSome then .ok rest else failAfter .invalidEscape s

/-- The characters of a string up to its closing quote. At most `fuel` characters or escapes are
read, and every one takes up a character of the rest at least. -/
def readChars : Nat → Reader (List Char)
  | 0, s => failHere .endInString s
  | _ + 1, [] => failHere .endInString []
  | _ + 1, '"' :: rest => .ok ([], rest)
  | fuel + 1, '\\' :: rest => do
    let (c, rest) ← readEscape rest
    let (more, rest) ← readChars fuel rest
    .ok (c :: more, rest)
  | fuel + 1, c :: rest =>
    if c.toNat < 0x20 then failAfter .controlCharacter (c :: rest)
    else do
      let (more, rest) ← readChars fuel rest
      .ok (c :: more, rest)

/-- A string after its opening quote. -/
def readString : Reader String := fun s =>
  (readChars (s.length + 1) s).map fun (chars, rest) => (String.ofList chars, rest)

/-- Pass over a string up to its closing quote. -/
def skipChars : Nat → List Char → Except Fault (List Char)
  | 0, s => failHere .endInString s
  | _ + 1, [] => failHere .endInString []
  | _ + 1, '"' :: rest => .ok rest
  | fuel + 1, '\\' :: rest => do
    let rest ← skipEscape rest
    skipChars fuel rest
  | fuel + 1, c :: rest =>
    if c.toNat < 0x20 then failHere .controlCharacter (c :: rest) else skipChars fuel rest

/-- Pass over a string after its opening quote. -/
def skipString (s : List Char) : Except Fault (List Char) :=
  skipChars (s.length + 1) s

end RangeSync.Json
