/-!
# Text as bytes

Text travels as UTF-8. `pieces` cuts a byte string into characters and faults, where a fault is
the longest beginning of a well-formed sequence that is not completed, or a single byte that no
sequence begins with. Both readings are read off the pieces: `decode?` refuses a byte string with
a fault in it, and `decodeLossy` puts the replacement character in the place of each fault.
-/

namespace RangeSync.Text

/-- The bytes of a text in UTF-8. -/
def encode (s : String) : List UInt8 :=
  s.toList.flatMap String.utf8EncodeChar

/-- The byte continues a sequence. -/
def isContinuation (b : UInt8) : Bool :=
  0x80 ≤ b && b ≤ 0xBF

/-- The second byte may follow the first of a sequence of three: overlong forms and surrogates
are left out. -/
def followsThree (first second : UInt8) : Bool :=
  if first == 0xE0 then 0xA0 ≤ second && second ≤ 0xBF
  else if first == 0xED then 0x80 ≤ second && second ≤ 0x9F
  else isContinuation second

/-- The second byte may follow the first of a sequence of four: overlong forms and values beyond
the last code point are left out. -/
def followsFour (first second : UInt8) : Bool :=
  if first == 0xF0 then 0x90 ≤ second && second ≤ 0xBF
  else if first == 0xF4 then 0x80 ≤ second && second ≤ 0x8F
  else isContinuation second

/-- The six payload bits of a continuation byte. -/
def payload (b : UInt8) : Nat :=
  b.toNat % 64

/-- **The head of a byte string**: the character that begins with `first`, or a fault, and how
many of the bytes after `first` belong to it. -/
def headPiece (first : UInt8) (rest : List UInt8) : Option Char × Nat :=
  if first < 0x80 then (some (Char.ofNat first.toNat), 0)
  else if 0xC2 ≤ first && first ≤ 0xDF then
    match rest with
    | b :: _ =>
      if isContinuation b then (some (Char.ofNat (first.toNat % 32 * 64 + payload b)), 1)
      else (none, 0)
    | [] => (none, 0)
  else if 0xE0 ≤ first && first ≤ 0xEF then
    match rest with
    | b :: more =>
      if followsThree first b then
        match more with
        | c :: _ =>
          if isContinuation c then
            (some (Char.ofNat ((first.toNat % 16 * 64 + payload b) * 64 + payload c)), 2)
          else (none, 1)
        | [] => (none, 1)
      else (none, 0)
    | [] => (none, 0)
  else if 0xF0 ≤ first && first ≤ 0xF4 then
    match rest with
    | b :: more =>
      if followsFour first b then
        match more with
        | c :: more =>
          if isContinuation c then
            match more with
            | d :: _ =>
              if isContinuation d then
                (some (Char.ofNat
                  (((first.toNat % 8 * 64 + payload b) * 64 + payload c) * 64 + payload d)), 3)
              else (none, 2)
            | [] => (none, 2)
          else (none, 1)
        | [] => (none, 1)
      else (none, 0)
    | [] => (none, 0)
  else (none, 0)

/-- The characters of a byte string, with `none` for each fault. -/
def pieces : List UInt8 → List (Option Char)
  | [] => []
  | b :: rest =>
    let head := headPiece b rest
    head.1 :: pieces (rest.drop head.2)
termination_by bytes => bytes.length
decreasing_by
  simp only [List.length_drop, List.length_cons]
  omega

/-- The text that the bytes are in UTF-8, if they are text. -/
def decode? (bytes : List UInt8) : Option String :=
  ((pieces bytes).mapM id).map String.ofList

/-- The text of the bytes, with U+FFFD in the place of every fault. -/
def decodeLossy (bytes : List UInt8) : String :=
  String.ofList ((pieces bytes).map (·.getD '\uFFFD'))

end RangeSync.Text
