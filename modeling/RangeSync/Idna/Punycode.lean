import RangeSync.Text.Cut

/-!
# Punycode

A label of a domain name with characters beyond ASCII travels in ASCII. Its ASCII characters come
first, then the others as insertions: in the order of their numbers, each by how many steps of
place and number lie between it and the one before. The steps are written with digits of base 36
whose weights adapt to the label (RFC 3492).
-/

namespace RangeSync.Idna.Punycode

open Text

/-- The digit of a value below 36: a letter, or a numeral from 26 on. -/
def digit (n : Nat) : Char :=
  if n < 26 then Char.ofNat (97 + n) else Char.ofNat (22 + n)

/-- The value of a digit; letters count in either case. -/
def value? (c : Char) : Option Nat :=
  if 'a' ≤ c ∧ c ≤ 'z' then some (c.toNat - 97)
  else if 'A' ≤ c ∧ c ≤ 'Z' then some (c.toNat - 65)
  else if '0' ≤ c ∧ c ≤ '9' then some (c.toNat - 22)
  else none

/-- The least value that is no last digit at a position, under a bias. Positions count in steps of
36, from 36 on. -/
def threshold (bias position : Nat) : Nat :=
  max 1 (min 26 (position - bias))

theorem threshold_pos (bias position : Nat) : 0 < threshold bias position := by
  simp only [threshold]
  omega

theorem threshold_lt (bias position : Nat) : threshold bias position < 36 := by
  simp only [threshold]
  omega

/-- The bias that suits insertions of about the given size. -/
def biasFor (size bias : Nat) : Nat :=
  if 455 < size then biasFor (size / 35) (bias + 36) else bias + 36 * size / (size + 38)
termination_by size
decreasing_by omega

/-- The bias after an insertion into a label that then has `length` characters. -/
def adapted (delta length : Nat) (isFirst : Bool) : Nat :=
  let start := if isFirst then delta / 700 else delta / 2
  biasFor (start + start / length) 0

/-- The digits of a number of steps. -/
def digits (bias position n : Nat) : List Char :=
  let t := threshold bias position
  if n < t then [digit n]
  else digit (t + (n - t) % (36 - t)) :: digits bias (position + 36) ((n - t) / (36 - t))
termination_by n
decreasing_by
  have h := threshold_pos bias position
  have h36 := threshold_lt bias position
  exact Nat.lt_of_le_of_lt (Nat.div_le_self _ _) (by omega)

/-! ### Writing -/

/-- What is known while insertions are written: how many characters are there, the steps since the
last insertion, the bias and the digits so far. -/
structure Writer where
  done : Nat
  delta : Nat
  bias : Nat
  output : List Char

/-- Pass one character of the label while the characters of number `n` are inserted. A number of
steps beyond 32 bits cannot be written. -/
def Writer.pass? (n basic : Nat) (w : Writer) (c : Char) : Option Writer :=
  if c.toNat < n then some { w with delta := w.delta + 1 }
  else if c.toNat = n then
    if UInt32.size ≤ w.delta then none
    else
      some
        { done := w.done + 1
          delta := 0
          bias := adapted w.delta (w.done + 1) (w.done == basic)
          output := w.output ++ digits w.bias 36 w.delta }
  else some w

/-- Insert the characters of the given numbers, which ascend; `next` is the number reached. -/
def Writer.insertAll? (label : List Char) (basic : Nat) (w : Writer) (next : Nat) :
    List Nat → Option Writer
  | [] => some w
  | n :: rest => do
    let start := { w with delta := w.delta + (n - next) * (w.done + 1) }
    let passed ← label.foldlM (Writer.pass? n basic) start
    insertAll? label basic { passed with delta := passed.delta + 1 } (n + 1) rest

/-- The character is in ASCII. -/
def isBasic (c : Char) : Bool :=
  c.toNat < 128

/-- The ASCII form of a label, unless the label is too long to have one. -/
def encode? (label : List Char) : Option (List Char) := do
  let basic := label.filter isBasic
  let others := ((label.filter (!isBasic ·)).map Char.toNat).mergeSort.eraseDups
  let written ← Writer.insertAll? label basic.length ⟨basic.length, 0, 72, []⟩ 128 others
  some ((if basic.isEmpty then [] else basic ++ ['-']) ++ written.output)

/-! ### Reading -/

/-- The number that digits spell from a position on, with the digits after it. Numbers that no
label can need are refused. -/
def number? (bias position weight total : Nat) : List Char → Option (Nat × List Char)
  | [] => none
  | c :: rest =>
    match value? c with
    | none => none
    | some v =>
      let total := total + v * weight
      let t := threshold bias position
      if UInt32.size ≤ total then none
      else if v < t then some (total, rest)
      else number? bias (position + 36) (weight * (36 - t)) total rest

/-- The list with an element put in at a place. -/
def insertAt {α : Type} (a : α) : Nat → List α → List α
  | 0, s => a :: s
  | _ + 1, [] => [a]
  | n + 1, b :: rest => b :: insertAt a n rest

/-- The number belongs to a character. -/
def isScalar (n : Nat) : Bool :=
  n < 0xD800 || (0xE000 ≤ n && n < 0x110000)

/-- Carry out the insertions that the digits spell. Every insertion takes up a digit, so the number
of digits bounds the number of insertions. -/
def insertions? (label : List Char) (n place bias : Nat) : Nat → List Char → Option (List Char)
  | _, [] => some label
  | 0, _ :: _ => none
  | fuel + 1, s =>
    match number? bias 36 1 0 s with
    | none => none
    | some (delta, rest) =>
      let length := label.length + 1
      let n := n + (place + delta) / length
      let at_ := (place + delta) % length
      if isScalar n then
        insertions? (insertAt (Char.ofNat n) at_ label) n (at_ + 1)
          (adapted delta length (place == 0)) fuel rest
      else none

/-- The characters before the last hyphen, and those after it. -/
def cutBasic (s : List Char) : List Char × List Char :=
  match cutAtLast? (· == '-') s with
  | some (basic, _, tail) => (basic, tail)
  | none => ([], s)

/-- The label that an ASCII form stands for. -/
def decode? (s : List Char) : Option (List Char) :=
  let (basic, tail) := cutBasic s
  if basic.all isBasic then insertions? basic 128 0 72 tail.length tail else none

end RangeSync.Idna.Punycode
