import RangeSync.Text.Hex

/-!
# SHA-1

The digest that tells whether a file was put together correctly. The message is padded with a one
bit, zeros and its length in bits to blocks of sixteen words; each block is stretched to eighty
words and mixed into five words of state. Words are added modulo `2 ^ 32`.
-/

namespace RangeSync.Digest

/-- The five words of the digest under construction. -/
structure Chain where
  a : UInt32
  b : UInt32
  c : UInt32
  d : UInt32
  e : UInt32
deriving DecidableEq, Repr

namespace Chain

/-- The state before the first block. -/
def start : Chain :=
  ⟨0x67452301, 0xEFCDAB89, 0x98BADCFE, 0x10325476, 0xC3D2E1F0⟩

/-- The words added one by one. -/
def add (x y : Chain) : Chain :=
  ⟨x.a + y.a, x.b + y.b, x.c + y.c, x.d + y.d, x.e + y.e⟩

/-- The words in order. -/
def words (x : Chain) : List UInt32 :=
  [x.a, x.b, x.c, x.d, x.e]

end Chain

/-- The word turned to the left by `n` of its 32 bits. -/
def rotate (x : UInt32) (n : UInt32) : UInt32 :=
  (x <<< n) ||| (x >>> (32 - n))

/-- The mixing function of one of the eighty rounds. -/
def mix (round : Nat) (b c d : UInt32) : UInt32 :=
  if round < 20 then (b &&& c) ||| (~~~b &&& d)
  else if round < 40 then b ^^^ c ^^^ d
  else if round < 60 then (b &&& c) ||| (b &&& d) ||| (c &&& d)
  else b ^^^ c ^^^ d

/-- The constant of one of the eighty rounds. -/
def constant (round : Nat) : UInt32 :=
  if round < 20 then 0x5A827999
  else if round < 40 then 0x6ED9EBA1
  else if round < 60 then 0x8F1BBCDC
  else 0xCA62C1D6

/-- One round. -/
def step (x : Chain) (round : Nat) (word : UInt32) : Chain :=
  ⟨rotate x.a 5 + mix round x.b x.c x.d + x.e + constant round + word,
    x.a, rotate x.b 30, x.c, x.d⟩

/-- The word that follows sixteen words, the oldest first. -/
def nextWord : List UInt32 → UInt32
  | w0 :: _ :: w2 :: _ :: _ :: _ :: _ :: _ :: w8 :: _ :: _ :: _ :: _ :: w13 :: _ =>
    rotate (w0 ^^^ w2 ^^^ w8 ^^^ w13) 1
  | _ => 0

/-- `left` rounds from round `round` on, with the next sixteen words in hand. -/
def rounds (x : Chain) (round : Nat) (window : List UInt32) : Nat → Chain
  | 0 => x
  | left + 1 =>
    match window with
    | [] => x
    | word :: later =>
      rounds (step x round word) (round + 1) (later ++ [nextWord window]) left

/-- A block mixed into the state. -/
def absorb (x : Chain) (block : List UInt32) : Chain :=
  x.add (rounds x 0 block 80)

/-- Four bytes as a word, the first byte the highest. -/
def wordsOf : List UInt8 → List UInt32
  | a :: b :: c :: d :: rest =>
    (a.toUInt32 <<< 24 ||| b.toUInt32 <<< 16 ||| c.toUInt32 <<< 8 ||| d.toUInt32) :: wordsOf rest
  | _ => []

/-- The bytes of a word, the highest first. -/
def bytesOf (w : UInt32) : List UInt8 :=
  [(w >>> 24).toUInt8, (w >>> 16).toUInt8, (w >>> 8).toUInt8, w.toUInt8]

/-- A count of bits as eight bytes, the highest first. -/
def lengthBytes (bits : Nat) : List UInt8 :=
  (List.range 8).map fun i => UInt8.ofNat ((bits >>> (8 * (7 - i))) % 256)

/-- The bytes after a message of `n` bytes that fill up its last block. -/
def padding (n : Nat) : List UInt8 :=
  0x80 :: List.replicate ((119 - n % 64) % 64) 0 ++ lengthBytes (8 * n)

/-- All blocks of sixteen words mixed in, in order. -/
def absorbAll (x : Chain) (words : List UInt32) : Chain :=
  match words with
  | [] => x
  | w :: rest => absorbAll (absorb x ((w :: rest).take 16)) ((w :: rest).drop 16)
termination_by words.length
decreasing_by simp only [List.length_drop, List.length_cons]; omega

/-- **The SHA-1 digest** of a message, twenty bytes. -/
def sha1 (message : List UInt8) : List UInt8 :=
  (absorbAll .start (wordsOf (message ++ padding message.length))).words.flatMap bytesOf

/-- The digest in lowercase hexadecimal, forty digits. -/
def sha1Hex (message : List UInt8) : String :=
  Text.hex (sha1 message)

end RangeSync.Digest
