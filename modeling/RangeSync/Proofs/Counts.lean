import RangeSync.Plan.Json
import RangeSync.Proofs.Results

/-!
# How counts are read

A number of JSON may have a point and a power of ten, and may be too great for its 64 bits; then it
is a double, and no count. What is left is easy to say: **a count is read exactly if it stands there
as it is printed** (`RangeSync.Json.readCount_eq_ok_iff`). No count has a second spelling, since no
zero may stand in front of other digits, and every count has one, since digits are collected exactly
as long as their number fits.

A number has no end of its own. It ends where the next character does not go on with it, so the
statement is about the rest as well (`RangeSync.Json.Stops`).
-/

namespace RangeSync.Json

open Text Numeric

variable {α β : Type} {s rest : List Char} {c : Char} {n d taken : Nat}

/-! ### Ends of numbers -/

/-- The number goes on with the character. -/
def isNumberPart (c : Char) : Bool :=
  isDigit c || c == '.' || c == 'e' || c == 'E'

/-- No number goes on with the rest. -/
def Stops (rest : List Char) : Prop :=
  ∀ c ∈ rest.head?, isNumberPart c = false

/-! ### Numbers -/

/-- **Digits are collected if their number fits a word.** -/
theorem collect_of_lt (h : valueAfter d (s.takeWhile isDigit) < wordBound) :
    collect d taken s = (valueAfter d (s.takeWhile isDigit),
      taken + (s.takeWhile isDigit).length, 0, s.dropWhile isDigit) := by
  induction s generalizing d taken with
  | nil => rfl
  | cons c s ih =>
    unfold collect
    by_cases hc : isDigit c = true
    · rw [List.takeWhile_cons_of_pos hc] at h ⊢
      rw [List.dropWhile_cons_of_pos hc, if_pos hc]
      have hmono (d : Nat) (digits : List Char) : d ≤ valueAfter d digits := by
        induction digits generalizing d with
        | nil => exact Nat.le_refl d
        | cons c digits ih => exact Nat.le_trans (by omega) (ih (d * 10 + digitValue c))
      change valueAfter (d * 10 + digitValue c) (s.takeWhile isDigit) < wordBound at h
      dsimp only
      rw [if_pos (Nat.lt_of_le_of_lt (hmono _ _) h), ih h, List.length_cons, Nat.add_right_comm]
      rfl
    · rw [List.takeWhile_cons_of_neg hc, List.dropWhile_cons_of_neg hc, if_neg hc]
      rfl

/-- Digits are left out otherwise. -/
theorem collect_of_le (hd : d < wordBound)
    (h : wordBound ≤ valueAfter d (s.takeWhile isDigit)) :
    (collect d taken s).2.2.1 ≠ 0 ∧ (collect d taken s).2.2.2 = s.dropWhile isDigit := by
  induction s generalizing d taken with
  | nil => exact absurd hd (Nat.not_lt.mpr h)
  | cons c s ih =>
    unfold collect
    by_cases hc : isDigit c = true
    · rw [List.takeWhile_cons_of_pos hc] at h ⊢
      rw [if_pos hc]
      dsimp only
      split
      · rename_i hnext
        rw [List.dropWhile_cons_of_pos hc]
        exact ih hnext h
      · exact ⟨nofun, rfl⟩
    · rw [List.takeWhile_cons_of_neg hc] at h
      exact absurd hd (Nat.not_lt.mpr h)

/-- No natural number comes from a point or from a power of ten. -/
theorem floating_ne_natural {negative : Bool} {power : Int} :
    floating negative d power s ≠ .ok (.natural n, rest) := by
  intro h
  unfold floating failHere at h
  dsimp only at h
  split at h
  · cases h
  · split at h
    · cases h
    · split at h
      · cases h
      · split at h <;> cases h

theorem readPower_ne_natural {negative : Bool} {power : Int} :
    readPower negative d power s ≠ .ok (.natural n, rest) := by
  intro h
  unfold readPower failHere failAfter at h
  split at h
  split at h
  · cases h
  · split at h
    · cases h
    · split at h
      · exact floating_ne_natural h
      · split at h <;> cases h

theorem readPlaces_ne_natural {negative : Bool} {power : Int} :
    readPlaces negative d power s ≠ .ok (.natural n, rest) := by
  intro h
  unfold readPlaces failHere failAfter at h
  dsimp only at h
  split at h
  · cases h
  · split at h
    · cases h
    · split at h
      · exact readPower_ne_natural h
      · exact readPower_ne_natural h
      · exact floating_ne_natural h

/-- The digits are the whole number if none has been left out and the number does not go on. -/
theorem readTail_eq_natural_iff {negative : Bool} {left : Nat}
    (hs : ∀ c ∈ s.head?, isDigit c = false) :
    readTail negative d left s = .ok (.natural n, rest) ↔
      negative = false ∧ left = 0 ∧ n = d ∧ rest = s ∧ Stops s := by
  unfold readTail Stops isNumberPart
  split
  · exact ⟨fun h => absurd h readPlaces_ne_natural, fun h => by simp at h⟩
  · exact ⟨fun h => absurd h readPower_ne_natural, fun h => by simp at h⟩
  · exact ⟨fun h => absurd h readPower_ne_natural, fun h => by simp at h⟩
  · rename_i hpoint hlower hupper
    have hstops : ∀ c ∈ s.head?, (isDigit c || c == '.' || c == 'e' || c == 'E') = false := by
      cases s with
      | nil => exact nofun
      | cons c s =>
        simp only [List.head?_cons, Option.mem_def, Option.some.injEq, forall_eq'] at hs ⊢
        simp only [hs, Bool.false_or, Bool.or_eq_false_iff, beq_eq_false_iff_ne, ne_eq]
        refine ⟨⟨?_, ?_⟩, ?_⟩
        · rintro rfl
          exact hpoint _ rfl
        · rintro rfl
          exact hlower _ rfl
        · rintro rfl
          exact hupper _ rfl
    split
    · rename_i hleft
      constructor
      · intro h
        cases negative with
        | false =>
          cases h
          exact ⟨rfl, hleft, rfl, rfl, hstops⟩
        | true =>
          unfold exact at h
          rw [if_neg (by decide)] at h
          split at h <;> cases h
      · rintro ⟨rfl, _, rfl, rfl, _⟩
        rfl
    · rename_i hleft
      exact ⟨fun h => absurd h floating_ne_natural, fun h => absurd h.2.1 hleft⟩

/-- A rest that stops a number does not begin with a digit. -/
theorem Stops.not_digit (h : Stops rest) : ∀ c ∈ rest.head?, isDigit c = false := by
  intro c hc
  have hpart := h c hc
  unfold isNumberPart at hpart
  simp only [Bool.or_eq_false_iff] at hpart
  exact hpart.1.1.1

theorem not_digit_dropWhile (s : List Char) :
    ∀ c ∈ (s.dropWhile isDigit).head?, isDigit c = false := by
  intro c hc
  have h := List.head?_dropWhile_not isDigit s
  rw [Option.mem_def] at hc
  rw [hc] at h
  simpa using h

/-- Digits in front of a rest that does not begin with one. -/
theorem span_append {digits : List Char} (h : ∀ c ∈ digits, isDigit c = true)
    (hrest : ∀ c ∈ rest.head?, isDigit c = false) :
    (digits ++ rest).takeWhile isDigit = digits ∧ (digits ++ rest).dropWhile isDigit = rest := by
  have hempty : rest.takeWhile isDigit = [] ∧ rest.dropWhile isDigit = rest := by
    cases rest with
    | nil => exact ⟨rfl, rfl⟩
    | cons c rest =>
      have hc : ¬ isDigit c = true := by simp [hrest c rfl]
      exact ⟨List.takeWhile_cons_of_neg hc, List.dropWhile_cons_of_neg hc⟩
  rw [List.takeWhile_append_of_pos h, List.dropWhile_append_of_pos h, hempty.1, hempty.2,
    List.append_nil]
  exact ⟨rfl, rfl⟩

theorem toDigits_ne_cons {m : Nat} (h : isDigit c = false) : Nat.toDigits 10 m ≠ c :: s := by
  intro heq
  rw [isDigit_of_mem_toDigits (heq ▸ List.mem_cons_self)] at h
  cases h

/-- A natural number has no sign, and all of its digits fit. -/
theorem readUnsigned_eq_natural_iff {negative : Bool} :
    readUnsigned negative s = .ok (.natural n, rest) ↔
      negative = false ∧ n < wordBound ∧ s = Nat.toDigits 10 n ++ rest ∧ Stops rest := by
  unfold readUnsigned failHere failAfter
  constructor
  · intro h
    split at h
    · cases h
    · rename_i c t
      split at h
      · cases h
      · rename_i hc
        rw [Bool.not_eq_true', Bool.not_eq_false] at hc
        split at h
        · rename_i hzero
          have hnext : (∀ d ∈ t.head?, isDigit d = false) ∧
              readTail negative 0 0 t = .ok (.natural n, rest) := by
            cases t with
            | nil => exact ⟨fun _ he => absurd he (Option.not_mem_none _), h⟩
            | cons d t =>
              dsimp only at h
              split at h
              · cases h
              · rename_i hd
                exact ⟨fun e he => Option.some.inj he ▸ Bool.eq_false_iff.mpr hd, h⟩
          obtain ⟨hsign, _, rfl, rfl, hstops⟩ := (readTail_eq_natural_iff hnext.1).mp hnext.2
          exact ⟨hsign, by decide, by rw [hzero]; rfl, hstops⟩
        · rename_i hne
          have hvalue : valueAfter (digitValue c) (t.takeWhile isDigit) < wordBound := by
            refine Nat.not_le.mp fun hle => ?_
            have hlt : digitValue c < wordBound :=
              Nat.lt_trans (digitChar_digitValue hc).1 (by decide)
            obtain ⟨hleft, hrest⟩ := @collect_of_le t _ 1 hlt hle
            exact hleft ((readTail_eq_natural_iff (hrest ▸ not_digit_dropWhile t)).mp h).2.1
          rw [collect_of_lt hvalue] at h
          obtain ⟨hsign, _, rfl, rfl, hstops⟩ :=
            (readTail_eq_natural_iff (not_digit_dropWhile t)).mp h
          refine ⟨hsign, hvalue, ?_, hstops⟩
          have hpos : 0 < digitValue c := by
            refine Nat.pos_of_ne_zero fun hzero => hne ?_
            rw [← (digitChar_digitValue hc).2, hzero]
            rfl
          have hall : ∀ d ∈ t.takeWhile isDigit, isDigit d = true := fun d hd =>
            List.all_eq_true.mp List.all_takeWhile d hd
          obtain ⟨hlt, hchar⟩ := digitChar_digitValue hc
          rw [(toDigits_valueAfter hall hpos).1, Nat.toDigits_of_lt_base hlt, hchar,
            List.append_assoc, List.takeWhile_append_dropWhile]
          rfl
  · rintro ⟨rfl, hn, rfl, hstops⟩
    obtain ⟨rfl, heq⟩ | ⟨c, digits, heq, hne, hvalue⟩ := toDigits_cases n
    · rw [heq]
      have htail : readTail false 0 0 rest = .ok (.natural 0, rest) :=
        (readTail_eq_natural_iff hstops.not_digit).mpr ⟨rfl, rfl, rfl, rfl, hstops⟩
      cases rest with
      | nil => exact htail
      | cons d rest =>
        have hd : isDigit d = false := hstops.not_digit d rfl
        dsimp only [List.cons_append, List.nil_append]
        rw [hd]
        exact htail
    · rw [heq]
      have hdigits : ∀ d ∈ c :: digits, isDigit d = true := fun d hd =>
        isDigit_of_mem_toDigits (heq ▸ hd)
      rw [List.forall_mem_cons] at hdigits
      obtain ⟨htake, hdrop⟩ := span_append hdigits.2 hstops.not_digit
      rw [List.cons_append]
      dsimp only
      rw [hdigits.1, collect_of_lt (by rwa [htake, hvalue]), htake, hdrop, hvalue]
      rw [if_neg (by decide), if_neg hne]
      exact (readTail_eq_natural_iff hstops.not_digit).mpr ⟨rfl, rfl, rfl, rfl, hstops⟩

/-- **A natural number is read exactly if its numeral stands there**, and the number does not go on
after it. -/
theorem readNumber_eq_natural_iff : readNumber s = .ok (.natural n, rest) ↔
    n < wordBound ∧ s = Nat.toDigits 10 n ++ rest ∧ Stops rest := by
  unfold readNumber
  split
  · rename_i t
    rw [readUnsigned_eq_natural_iff]
    constructor
    · exact fun h => absurd h.1 (by decide)
    · rintro ⟨_, heq, _⟩
      obtain ⟨c, digits, hcons⟩ := List.exists_cons_of_ne_nil (@Nat.toDigits_ne_nil n 10)
      rw [hcons, List.cons_append] at heq
      obtain ⟨rfl, _⟩ := List.cons.inj heq
      exact absurd hcons (toDigits_ne_cons (by decide))
  · rw [readUnsigned_eq_natural_iff]
    simp

theorem failExpected_ne_ok {expected : String} {a : α} : failExpected expected s ≠ .ok a := by
  intro h
  obtain ⟨_, _, h⟩ := bind_eq_ok_iff.mp h
  cases h

/-- **A count is read exactly if it stands there as it is printed**, with blanks in front of it. -/
theorem readCount_eq_ok_iff {w : UInt64} : readCount s = .ok (w, rest) ↔
    skipGap s = (decimal w.toNat).toList ++ rest ∧ Stops rest := by
  rw [show (decimal w.toNat).toList = Nat.toDigits 10 w.toNat from Nat.toList_repr]
  unfold readCount
  constructor
  · intro h
    split at h
    · cases h
    · rename_i c t hskip
      split at h
      · obtain ⟨⟨number, t'⟩, hnumber, h⟩ := bind_eq_ok_iff.mp h
        cases number with
        | natural n =>
          cases h
          obtain ⟨hn, hdigits, hstops⟩ := readNumber_eq_natural_iff.mp hnumber
          rw [UInt64.toNat_ofNat_of_lt' hn, hskip, hdigits]
          exact ⟨rfl, hstops⟩
        | negative n => cases h
        | floating x => cases h
      · exact absurd h failExpected_ne_ok
  · rintro ⟨hskip, hstops⟩
    obtain ⟨c, digits, hcons⟩ := List.exists_cons_of_ne_nil (@Nat.toDigits_ne_nil w.toNat 10)
    have hc : isDigit c = true := isDigit_of_mem_toDigits (hcons ▸ List.mem_cons_self)
    have hnumber : readNumber (c :: (digits ++ rest)) = .ok (.natural w.toNat, rest) :=
      readNumber_eq_natural_iff.mpr ⟨w.toNat_lt_size, by rw [hcons]; rfl, hstops⟩
    rw [hskip, hcons, List.cons_append]
    dsimp only
    rw [if_pos (Or.inr hc), hnumber]
    exact congrArg (fun w => Except.ok (w, rest)) UInt64.ofNat_toNat
end RangeSync.Json
