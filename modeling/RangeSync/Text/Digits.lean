import RangeSync.Text.Blank

/-!
# Decimal numerals

Counts are read and written in decimal. A numeral is a nonempty run of ASCII digits, leading
zeros allowed; a signed numeral may begin with `+` or `-`. The reader of a count refuses one that
does not fit the stated bound, so that nothing wraps.
-/

namespace RangeSync.Text

/-- The character is one of `0` to `9`. -/
def isDigit (c : Char) : Bool :=
  '0' ≤ c && c ≤ '9'

/-- The value of a digit. -/
def digitValue (c : Char) : Nat :=
  c.toNat - 48

/-- The number that a run of digits spells. -/
def valueOf (digits : List Char) : Nat :=
  digits.foldl (fun n c => n * 10 + digitValue c) 0

/-- The number that a text spells, if it is a nonempty run of digits. -/
def numeral? (s : List Char) : Option Nat :=
  if !s.isEmpty && s.all isDigit then some (valueOf s) else none

/-- A count below `bound`, with an optional plus sign. -/
def count? (bound : Nat) (s : List Char) : Option Nat :=
  let digits := match s with
    | '+' :: rest => rest
    | _ => s
  (numeral? digits).filter (· < bound)

/-- A signed integer from `-bound` to `bound - 1`, with an optional sign. -/
def signed? (bound : Nat) (s : List Char) : Option Int :=
  match s with
  | '-' :: rest => ((numeral? rest).filter (· ≤ bound)).map (fun n => -(n : Int))
  | _ => (count? bound s).map (fun n => (n : Int))

/-- The numeral of a number in decimal. -/
def decimal (n : Nat) : String :=
  n.repr

/-- The numeral of a number, with zeros in front until it has `width` digits. -/
def padded (width n : Nat) : String :=
  let digits := (decimal n).toList
  String.ofList (List.replicate (width - digits.length) '0' ++ digits)

/-! ### Numerals without leading zeros -/

section Numerals

variable {c : Char} {s : List Char} {d n : Nat}

/-- The number that digits make behind others that have been collected. -/
def valueAfter (d : Nat) (digits : List Char) : Nat :=
  digits.foldl (fun n c => n * 10 + digitValue c) d

theorem isDigit_iff : isDigit c = true ↔ 48 ≤ c.toNat ∧ c.toNat ≤ 57 := by
  rw [isDigit, Bool.and_eq_true, decide_eq_true_iff, decide_eq_true_iff, Char.le_def, Char.le_def]
  exact Iff.rfl

/-- A digit is no blank. -/
theorem not_isBlank_of_isDigit (h : isDigit c = true) : isBlank c = false := by
  have hdigit := isDigit_iff.mp h
  simp only [isBlank, Bool.or_eq_false_iff, Bool.and_eq_false_iff, beq_eq_false_iff_ne,
    decide_eq_false_iff_not]
  omega

/-- Digits have the values that they are printed for. -/
theorem digitChar_digitValue (h : isDigit c = true) :
    digitValue c < 10 ∧ (digitValue c).digitChar = c := by
  rw [isDigit_iff] at h
  have hc : c = Char.ofNat (48 + digitValue c) := by
    rw [digitValue, Nat.add_sub_cancel' h.1, Char.ofNat_toNat]
  have hlt : digitValue c < 10 := by unfold digitValue; omega
  refine ⟨hlt, ?_⟩
  rw [hc]
  generalize digitValue c = v at hlt
  have hall : ∀ v < 10, (digitValue (Char.ofNat (48 + v))).digitChar = Char.ofNat (48 + v) := by
    decide
  exact hall v hlt

/-- **Digits without a leading zero are the numeral of their number.** -/
theorem toDigits_valueAfter (h : ∀ c ∈ s, isDigit c = true) (hd : 0 < d) :
    Nat.toDigits 10 (valueAfter d s) = Nat.toDigits 10 d ++ s ∧ 0 < valueAfter d s := by
  induction s generalizing d with
  | nil => exact ⟨(List.append_nil _).symm, hd⟩
  | cons c s ih =>
    rw [List.forall_mem_cons] at h
    obtain ⟨hlt, hchar⟩ := digitChar_digitValue h.1
    obtain ⟨heq, hpos⟩ := ih h.2 (show 0 < d * 10 + digitValue c by omega)
    refine ⟨heq.trans ?_, hpos⟩
    rw [Nat.mul_comm, ← Nat.toDigits_append_toDigits (by omega) hd hlt,
      Nat.toDigits_of_lt_base hlt, hchar, List.append_assoc]
    rfl

theorem isDigit_of_mem_toDigits (h : c ∈ Nat.toDigits 10 n) : isDigit c = true := by
  have hdigit := Nat.isDigit_of_mem_toDigits (by decide) (by decide) h
  rw [Char.isDigit, Bool.and_eq_true, decide_eq_true_iff, decide_eq_true_iff] at hdigit
  exact isDigit_iff.mpr hdigit

/-- A numeral is zero, or it begins with another digit. -/
theorem toDigits_cases (n : Nat) : (n = 0 ∧ Nat.toDigits 10 n = ['0']) ∨
    ∃ c digits, Nat.toDigits 10 n = c :: digits ∧ c ≠ '0' ∧
      valueAfter (digitValue c) digits = n := by
  have hchar : ∀ v < 10, digitValue v.digitChar = v ∧ (v ≠ 0 → v.digitChar ≠ '0') := by decide
  induction n using Nat.base_induction 10 (by decide) with
  | single n hn =>
    rw [Nat.toDigits_of_lt_base hn]
    obtain ⟨hvalue, hne⟩ := hchar n hn
    rcases Nat.eq_zero_or_pos n with rfl | hpos
    · exact .inl ⟨rfl, rfl⟩
    · exact .inr ⟨_, [], rfl, hne (Nat.ne_of_gt hpos), hvalue⟩
  | digit n v hv hn ih =>
    obtain ⟨rfl, _⟩ | ⟨c, digits, heq, hne, hvalue⟩ := ih
    · exact absurd hn (Nat.lt_irrefl 0)
    · refine .inr ⟨c, digits ++ [v.digitChar], ?_, hne, ?_⟩
      · rw [← Nat.toDigits_append_toDigits (by decide) hn hv, heq, Nat.toDigits_of_lt_base hv]
        rfl
      · unfold valueAfter at hvalue ⊢
        rw [List.foldl_append, hvalue, List.foldl_cons, (hchar v hv).1, List.foldl_nil,
          Nat.mul_comm]

/-- A property of the ten digits. -/
theorem forall_isDigit {P : Char → Prop} (h : ∀ v < 10, P v.digitChar)
    (hc : isDigit c = true) : P c := by
  obtain ⟨hlt, hchar⟩ := digitChar_digitValue hc
  exact hchar ▸ h _ hlt

theorem toList_decimal (n : Nat) : (decimal n).toList = Nat.toDigits 10 n :=
  Nat.toList_repr

theorem decimal_isDigit (n : Nat) : (decimal n).toList ≠ [] ∧
    ∀ c ∈ (decimal n).toList, isDigit c = true := by
  rw [toList_decimal]
  exact ⟨Nat.toDigits_ne_nil, fun c hc => isDigit_of_mem_toDigits hc⟩

theorem valueOf_decimal (n : Nat) : valueOf (decimal n).toList = n := by
  rw [toList_decimal]
  rcases toDigits_cases n with ⟨rfl, h⟩ | ⟨c, digits, h, -, hvalue⟩
  · rw [h]
    rfl
  · rw [h, valueOf, List.foldl_cons, Nat.zero_mul, Nat.zero_add]
    exact hvalue

end Numerals

end RangeSync.Text
