/-!
# Hexadecimal text

The printed form of a digest is its bytes in lowercase hexadecimal, two digits each. Digests are
compared as text, so the printed form is canonical, and `isHexDigit` also knows the uppercase
digits that a descriptor may hold.
-/

namespace RangeSync.Text

/-- The lowercase hexadecimal digit of a value below 16. -/
def hexDigit (n : Nat) : Char :=
  if n < 10 then Char.ofNat (48 + n) else Char.ofNat (87 + n)

/-- The value of a hexadecimal digit of either case. -/
def hexValue? (c : Char) : Option Nat :=
  if '0' ≤ c ∧ c ≤ '9' then some (c.toNat - 48)
  else if 'a' ≤ c ∧ c ≤ 'f' then some (c.toNat - 87)
  else if 'A' ≤ c ∧ c ≤ 'F' then some (c.toNat - 55)
  else none

/-- The character is a hexadecimal digit of either case. -/
def isHexDigit (c : Char) : Bool :=
  (hexValue? c).isSome

/-- Two lowercase hexadecimal digits for every byte. -/
def hex (bytes : List UInt8) : String :=
  String.ofList (bytes.flatMap fun b => [hexDigit (b.toNat / 16), hexDigit (b.toNat % 16)])

/-- The value of a natural number in lowercase hexadecimal, without leading zeros. -/
def hexNat (n : Nat) : List Char :=
  if n < 16 then [hexDigit n] else hexNat (n / 16) ++ [hexDigit (n % 16)]
termination_by n

theorem hexValue?_hexDigit : ∀ n < 16, hexValue? (hexDigit n) = some n := by
  decide

/-- A digit is a decimal one, a lowercase one or a capital one, and has its value accordingly. -/
theorem hexValue?_eq_some_iff {c : Char} {n : Nat} : hexValue? c = some n ↔
    (48 ≤ c.toNat ∧ c.toNat ≤ 57 ∧ n = c.toNat - 48) ∨
    (97 ≤ c.toNat ∧ c.toNat ≤ 102 ∧ n = c.toNat - 87) ∨
    (65 ≤ c.toNat ∧ c.toNat ≤ 70 ∧ n = c.toNat - 55) := by
  have h (d : Char) : d ≤ c ↔ d.toNat ≤ c.toNat := Iff.rfl
  have h' (d : Char) : c ≤ d ↔ c.toNat ≤ d.toNat := Iff.rfl
  unfold hexValue?
  simp only [h, h', Char.reduceToNat]
  grind

theorem hexValue?_lt {c : Char} {n : Nat} (h : hexValue? c = some n) : n < 16 := by
  have := hexValue?_eq_some_iff.mp h
  omega

end RangeSync.Text
