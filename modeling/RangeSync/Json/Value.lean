import RangeSync.Json.Token

/-!
# The values of a JSON text

Readers for what a plan is made of (counts, lists and tuples), a reader that says what stands in
the place of something else, and one that passes over a value of any kind. The last keeps its own
stack of open lists and objects, so the depth of what it passes over is not limited.
-/

namespace RangeSync.Json

open Text

/-- What stands at the beginning of the rest, read as far as it takes to name it. -/
def readFound : Reader Found := fun s =>
  match s with
  | [] => failAfter .expectedValue []
  | 'n' :: rest => (readName ['u', 'l', 'l'] rest).map (Found.null, ·)
  | 't' :: rest => (readName ['r', 'u', 'e'] rest).map (Found.bool true, ·)
  | 'f' :: rest => (readName ['a', 'l', 's', 'e'] rest).map (Found.bool false, ·)
  | '"' :: rest => (readString rest).map fun (text, rest) => (Found.string text, rest)
  | '[' :: _ => .ok (.list, s)
  | '\x7b' :: _ => .ok (.object, s)
  | c :: _ =>
    if c = '-' ∨ isDigit c then (readNumber s).map fun (n, rest) => (Found.number n, rest)
    else failAfter .expectedValue s

/-- Something other than what is expected stands at the beginning of the rest. -/
def failExpected {α : Type} (expected : String) (s : List Char) : Except Fault α := do
  let (found, rest) ← readFound s
  failHere (.wrongType found expected) rest

/-- What a count is called in messages. -/
def countName : String := "u64"

/-- A natural number below `2 ^ 64`. -/
def readCount : Reader UInt64 := fun s =>
  match skipGap s with
  | [] => failAfter .endInValue []
  | c :: rest =>
    if c = '-' ∨ isDigit c then do
      let (n, rest) ← readNumber (c :: rest)
      match n with
      | .natural n => .ok (UInt64.ofNat n, rest)
      | .negative _ => failHere (.wrongValue (.number n) countName) rest
      | .floating _ => failHere (.wrongType (.number n) countName) rest
    else failExpected countName (c :: rest)

/-- A count, or `null` for none. -/
def readOptionalCount : Reader (Option UInt64) := fun s =>
  match skipGap s with
  | 'n' :: rest => (readName ['u', 'l', 'l'] rest).map (none, ·)
  | s => (readCount s).map fun (n, rest) => (some n, rest)

/-! ### Lists -/

/-- Whether a list goes on, and the rest at its next element or at its closing bracket. -/
def nextElement (isFirst : Bool) (s : List Char) : Except Fault (Bool × List Char) :=
  match skipGap s with
  | [] => failAfter .endInList []
  | ']' :: rest => .ok (false, ']' :: rest)
  | c :: rest =>
    if isFirst then .ok (true, c :: rest)
    else if c = ',' then
      match skipGap rest with
      | [] => failAfter .endInValue []
      | ']' :: rest => failAfter .trailingComma (']' :: rest)
      | s => .ok (true, s)
    else failAfter .expectedListEnd (c :: rest)

/-- The rest after the closing bracket of a list that takes no more elements. -/
def closeList (s : List Char) : Except Fault (List Char) :=
  match skipGap s with
  | [] => failAfter .endInList []
  | ']' :: rest => .ok rest
  | ',' :: rest =>
    match skipGap rest with
    | ']' :: rest => failAfter .trailingComma (']' :: rest)
    | s => failAfter .trailingCharacters s
  | s => failAfter .trailingCharacters s

/-- The elements of a list up to its closing bracket. Every element takes up a character, so the
length of the rest bounds their number. -/
def readElements {α : Type} (element : Reader α) : Nat → Bool → Reader (List α)
  | 0, _, s => failHere .endInList s
  | fuel + 1, isFirst, s => do
    let (more, s) ← nextElement isFirst s
    if more then
      let (a, s) ← element s
      let (rest, s) ← readElements element fuel false s
      .ok (a :: rest, s)
    else
      let s ← closeList s
      .ok ([], s)

/-- A list of any length. -/
def readList {α : Type} (element : Reader α) : Reader (List α) := fun s =>
  match skipGap s with
  | [] => failAfter .endInValue []
  | '[' :: rest => readElements element (rest.length + 1) true rest
  | s => failExpected "a sequence" s

/-- `left` more counts of a tuple of `size`. -/
def readCounts (size : Nat) (expected : String) : Nat → Bool → Reader (List UInt64)
  | 0, _, s => do
    let s ← closeList s
    .ok ([], s)
  | left + 1, isFirst, s => do
    let (more, s) ← nextElement isFirst s
    if more then
      let (n, s) ← readCount s
      let (rest, s) ← readCounts size expected left false s
      .ok (n :: rest, s)
    else failHere (.wrongLength (size - left - 1) expected) (s.drop 1)

/-- A list of exactly `size` counts. -/
def readTuple (size : Nat) : Reader (List UInt64) := fun s =>
  let expected := "a tuple of size " ++ decimal size
  match skipGap s with
  | [] => failAfter .endInValue []
  | '[' :: rest => readCounts size expected size true rest
  | s => failExpected expected s

/-! ### Values of any kind -/

/-- A list or object that has not been closed. -/
inductive Frame
  | list | object
deriving DecidableEq, Repr

/-- Pass over a number; its size is not looked at. -/
def skipNumber (s : List Char) : Except Fault (List Char) :=
  match s with
  | [] => failAfter .invalidNumber []
  | c :: rest =>
    if !isDigit c then failAfter .invalidNumber s
    else if c = '0' then
      match rest with
      | d :: _ => if isDigit d then failAfter .invalidNumber rest else skipPlaces rest
      | [] => skipPlaces rest
    else skipPlaces (rest.dropWhile isDigit)
where
  /-- Pass over the digits after the point, if there is one, and the power of ten. -/
  skipPlaces (s : List Char) : Except Fault (List Char) :=
    match s with
    | '.' :: rest =>
      match rest with
      | [] => failAfter .invalidNumber rest
      | c :: _ =>
        if isDigit c then skipPower (rest.dropWhile isDigit) else failAfter .invalidNumber rest
    | _ => skipPower s
  /-- Pass over the power of ten, if there is one. -/
  skipPower (s : List Char) : Except Fault (List Char) :=
    match s with
    | [] => .ok []
    | e :: rest =>
      if e = 'e' ∨ e = 'E' then
        let rest := match rest with
          | '+' :: more => more
          | '-' :: more => more
          | _ => rest
        match rest with
        | [] => failAfter .invalidNumber []
        | c :: more =>
          if isDigit c then .ok (more.dropWhile isDigit) else failAfter .invalidNumber rest
      else .ok s

/-- The rest after a value that is no list or object, or the frame that begins. -/
def skipStart (s : List Char) : Except Fault (Option Frame × List Char) :=
  match skipGap s with
  | [] => failAfter .endInValue []
  | 'n' :: rest => (readName ['u', 'l', 'l'] rest).map (none, ·)
  | 't' :: rest => (readName ['r', 'u', 'e'] rest).map (none, ·)
  | 'f' :: rest => (readName ['a', 'l', 's', 'e'] rest).map (none, ·)
  | '-' :: rest => (skipNumber rest).map (none, ·)
  | '"' :: rest => (skipString rest).map (none, ·)
  | '[' :: rest => .ok (some .list, rest)
  | '\x7b' :: rest => .ok (some .object, rest)
  | c :: rest =>
    if isDigit c then (skipNumber (c :: rest)).map (none, ·)
    else failAfter .expectedValue (c :: rest)

/-- The rest after the closing brackets that follow, with the frames that stay open, at the place
of the next value or key. `none` if no frame stays open. -/
def skipClosing (afterValue : Bool) (frame : Frame) (outer : List Frame) (s : List Char) :
    Except Fault (Option (Frame × List Frame) × List Char) :=
  match skipGap s with
  | [] => failAfter (match frame with | .list => .endInList | .object => .endInObject) []
  | c :: rest =>
    if c = ',' ∧ afterValue then .ok (some (frame, outer), rest)
    else if (c = ']' ∧ frame = .list) ∨ (c = '\x7d' ∧ frame = .object) then
      match outer with
      | [] => .ok (none, rest)
      | next :: outer => skipClosing true next outer rest
    else if afterValue then
      failAfter (match frame with | .list => .expectedListEnd | .object => .expectedObjectEnd)
        (c :: rest)
    else .ok (some (frame, outer), c :: rest)
termination_by outer.length

/-- Pass over a key and its colon. -/
def skipKey (s : List Char) : Except Fault (List Char) :=
  match skipGap s with
  | [] => failAfter .endInObject []
  | '"' :: rest => do
    let rest ← skipString rest
    match skipGap rest with
    | [] => failAfter .endInObject []
    | ':' :: rest => .ok rest
    | s => failAfter .expectedColon s
  | s => failAfter .keyNotString s

/-- Pass over a value inside of the open frames, and over everything that follows up to the end of
the outermost frame. Every round takes up a character. -/
def skipNested : Nat → List Frame → List Char → Except Fault (List Char)
  | 0, _, s => failAfter .endInValue s
  | fuel + 1, frames, s => do
    let (opened, s) ← skipStart s
    let stack := match opened with
      | some frame => frame :: frames
      | none => frames
    match stack with
    | [] => .ok s
    | frame :: outer => do
      let (open_, s) ← skipClosing opened.isNone frame outer s
      match open_ with
      | none => .ok s
      | some (.list, outer) => skipNested fuel (.list :: outer) s
      | some (.object, outer) => do
        let s ← skipKey s
        skipNested fuel (.object :: outer) s

/-- Pass over a value of any kind. -/
def skipValue (s : List Char) : Except Fault (List Char) :=
  skipNested (s.length + 1) [] s

end RangeSync.Json
