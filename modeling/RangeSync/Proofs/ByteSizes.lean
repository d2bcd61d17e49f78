import RangeSync.Proofs.Fractions
import RangeSync.Settings.Value

/-!
# Which texts are byte sizes

A byte size is a number with a unit, and it is read by cutting: the number is as long as there are
digits and points, and what follows has to name a unit. Nothing looks at the text as a whole. But no
digit, no point and no letter of a unit is a blank, and no letter of a unit belongs to a number, so
a text can be cut in one way only. `RangeSync.ByteSize.Spells` says which parts it has; a text with
these parts is read as they say (`RangeSync.ByteSize.read?_of_spells`), and a text that is read has
them (`RangeSync.ByteSize.exists_spells`). Which texts are accepted, and what of every other text, is
`RangeSync.ByteSize.accepts_fractions_with_units`.

The number may have a point, so it is read in double precision. A natural number with a unit keeps
its value if it has at most 53 bits up to the zeros at its end, and the unit, a power of two, costs
none of them (`RangeSync.ByteSize.read?_of_spells_natural`). Sizes are printed exactly, with the
greatest unit that divides them. So not every size that is printed is read back: it is for those
with few enough bits, and for the greatest count, to which all that is beyond it is cut off
(`RangeSync.ByteSize.reads_back_short_counts`).
-/

namespace RangeSync

open Text Numeric Magnitude

/-! ### Units -/

namespace ByteUnit

variable {unit : ByteUnit} {word : String} {n : Nat}

/-- The words for the units, and no word. -/
def spellings : List (String × ByteUnit) :=
  [("", .byte), ("b", .byte), ("k", .kilo), ("kb", .kilo), ("m", .mega), ("mb", .mega),
    ("g", .giga), ("gb", .giga), ("t", .tera), ("tb", .tera)]

theorem ofName?_eq_some_iff : ofName? word = some unit ↔ (word, unit) ∈ spellings := by
  constructor
  · intro h
    unfold ofName? at h
    split at h <;> cases h <;> decide
  · have hall : ∀ p ∈ spellings, ofName? p.1 = some p.2 := by decide
    exact hall (word, unit)

theorem name_mem_spellings (unit : ByteUnit) : (unit.name, unit) ∈ spellings := by
  cases unit <;> decide

/-- The units are powers of two. -/
theorem exists_factor (unit : ByteUnit) : ∃ k, unit.factor = twoTo k := by
  cases unit
  exacts [⟨0, rfl⟩, ⟨10, rfl⟩, ⟨20, rfl⟩, ⟨30, rfl⟩, ⟨40, rfl⟩]

theorem factor_pos (unit : ByteUnit) : 0 < unit.factor := by
  cases unit <;> decide

theorem isShort_mul_factor_iff : IsShort (n * unit.factor) ↔ IsShort n := by
  obtain ⟨k, hk⟩ := unit.exists_factor
  rw [hk, isShort_mul_twoTo_iff]

/-- The letters of the units. -/
def letters : List Char := ['b', 'k', 'm', 'g', 't']

theorem mem_letters (h : (word, unit) ∈ spellings) : ∀ c ∈ word.toList, c ∈ letters := by
  have hall : ∀ p ∈ spellings, (p.1.toList.all fun c => letters.contains c) = true := by decide
  intro c hc
  exact List.contains_iff_mem.mp (List.all_eq_true.mp (hall (word, unit) h) c hc)

/-- A letter of a unit is in lower case, no blank and no part of a number. -/
theorem of_mem_letters {c : Char} (h : c ∈ letters) :
    c.toLower = c ∧ isBlank c = false ∧ ByteSize.inNumber c = false := by
  simp only [letters, List.mem_cons, List.not_mem_nil, or_false] at h
  rcases h with rfl | rfl | rfl | rfl | rfl <;> decide

end ByteUnit

namespace ByteSize

variable {text : String} {whole places : List Char} {unit : ByteUnit} {size : ByteSize}
  {n : Nat}

/-! ### Number and unit -/

/-- Without the blanks around it and in lower case, the text is a fraction, then blanks, then a
word for a unit. -/
def Spells (text : String) (whole places : List Char) (unit : ByteUnit) : Prop :=
  ∃ number gap word, lowered (trim text.toList) = number ++ gap ++ word.toList ∧
    Decimal.IsFraction number whole places ∧ (∀ c ∈ gap, isBlank c = true) ∧
    (word, unit) ∈ ByteUnit.spellings

theorem inNumber_iff {c : Char} : inNumber c = true ↔ isDigit c = true ∨ c = '.' := by
  rw [inNumber, Bool.or_eq_true, beq_iff_eq]

theorem isBlank_of_inNumber {c : Char} (h : inNumber c = true) : isBlank c = false := by
  rcases inNumber_iff.mp h with h | rfl
  · exact not_isBlank_of_isDigit h
  · decide

theorem inNumber_of_isFraction {number : List Char}
    (h : Decimal.IsFraction number whole places) : ∀ c ∈ number, inNumber c = true := by
  obtain ⟨hdigits, _, hnumber⟩ := h
  intro c hc
  rw [inNumber_iff]
  rcases hnumber with ⟨rfl, rfl⟩ | rfl
  · exact Or.inl (hdigits c (List.mem_append_left _ hc))
  · rcases List.mem_append.mp hc with hc | hc
    · exact Or.inl (hdigits c (List.mem_append_left _ hc))
    · rcases List.mem_cons.mp hc with rfl | hc
      · exact Or.inr rfl
      · exact Or.inl (hdigits c (List.mem_append_right _ hc))

/-- The number ends where the blanks or the word begin, -/
theorem span_inNumber {number back : List Char} (hnumber : ∀ c ∈ number, inNumber c = true)
    (hback : ∀ c ∈ back, inNumber c = false) :
    (number ++ back).takeWhile inNumber = number ∧ (number ++ back).dropWhile inNumber = back := by
  cases back with
  | nil =>
    rw [List.append_nil]
    exact takeWhile_dropWhile_of_forall hnumber
  | cons c back => exact takeWhile_dropWhile_append hnumber (hback c List.mem_cons_self)

/-- and the word is what is left when the blanks are dropped. -/
theorem trim_gap {gap : List Char} {word : String} (hgap : ∀ c ∈ gap, isBlank c = true)
    (hword : (word, unit) ∈ ByteUnit.spellings) : trim (gap ++ word.toList) = word.toList := by
  have hletter : ∀ c ∈ word.toList, isBlank c = false := fun c hc =>
    (ByteUnit.of_mem_letters (ByteUnit.mem_letters hword c hc)).2.1
  by_cases hnil : word.toList = []
  · rw [hnil, List.append_nil, trim, trimStart, (takeWhile_dropWhile_of_forall hgap).2,
      dropEndWhile_nil]
  · have heq : trim (gap ++ word.toList ++ []) = word.toList := trim_eq hgap
      (fun _ hc => absurd hc List.not_mem_nil)
      (fun c hc => hletter c (List.mem_of_mem_head? hc))
      (fun c hc => hletter c (List.mem_of_getLast? hc)) hnil
    rwa [List.append_nil] at heq

/-- The magnitude that a fraction is rounded to. -/
def magnitude (whole places : List Char) : Magnitude :=
  Decimal.toMagnitude ⟨valueOf (whole ++ places), -(places.length : Int)⟩

theorem number?_of_isFraction {number : List Char}
    (h : Decimal.IsFraction number whole places) :
    number? number = if valueOf (whole ++ places) < beyond * tenTo places.length
      then some (magnitude whole places) else none := by
  rw [number?, Decimal.read?_of_isFraction h, Option.map_some, Option.filter_some]
  exact if_congr (Decimal.fits_toMagnitude_iff _ _) rfl rfl

/-- **What is read of a text that has its parts.** -/
theorem read?_of_spells (h : Spells text whole places unit) :
    read? text = if valueOf (whole ++ places) < beyond * tenTo places.length
      then some (saturating ((magnitude whole places).mul (ofNat unit.factor)).round)
      else none := by
  obtain ⟨number, gap, word, htext, hfraction, hgap, hword⟩ := h
  have hback : ∀ c ∈ gap ++ word.toList, inNumber c = false := by
    intro c hc
    rcases List.mem_append.mp hc with hc | hc
    · have hblank := hgap c hc
      exact Bool.eq_false_iff.mpr fun h =>
        Bool.false_ne_true ((isBlank_of_inNumber h).symm.trans hblank)
    · exact (ByteUnit.of_mem_letters (ByteUnit.mem_letters hword c hc)).2.2
  obtain ⟨htake, hdrop⟩ := span_inNumber (inNumber_of_isFraction hfraction) hback
  unfold read?
  dsimp only
  rw [htext, List.append_assoc, htake, hdrop, trim_gap hgap hword, String.ofList_toList,
    ByteUnit.ofName?_eq_some_iff.mpr hword, number?_of_isFraction hfraction]
  by_cases hlt : valueOf (whole ++ places) < beyond * tenTo places.length
  · simp only [if_pos hlt]
  · simp only [if_neg hlt]

/-- Of a text that does not end in a blank, only blanks in front are dropped. -/
theorem exists_gap {s : List Char} (hlast : ∀ c, s.getLast? = some c → isBlank c = false) :
    ∃ gap, s = gap ++ trim s ∧ ∀ c ∈ gap, isBlank c = true := by
  refine ⟨s.takeWhile isBlank, ?_, List.all_eq_true.mp List.all_takeWhile⟩
  have htrim : trim s = s.dropWhile isBlank := by
    refine dropEndWhile_eq_iff.mpr ⟨[], (List.append_nil _).symm, nofun, fun c hc => hlast c ?_⟩
    rw [← List.takeWhile_append_dropWhile (p := isBlank) (l := s), List.getLast?_append,
      show (s.dropWhile isBlank).getLast? = some c from hc, Option.some_or]
  rw [htrim, List.takeWhile_append_dropWhile]

/-- **A text that is read has the parts.** -/
theorem exists_spells (h : read? text = some size) :
    ∃ whole places unit, Spells text whole places unit := by
  unfold read? at h
  dsimp only at h
  split at h
  · rename_i unit number hunit hnumber
    generalize hs : lowered (trim text.toList) = s at hunit hnumber
    have hread : Decimal.read? (s.takeWhile inNumber) ≠ none := by
      intro hnone
      rw [number?, hnone] at hnumber
      cases hnumber
    obtain ⟨whole, places, hfraction⟩ := Decimal.exists_isFraction
      (fun c hc => inNumber_iff.mp (List.all_eq_true.mp List.all_takeWhile c hc)) hread
    -- the unit ends where the text does, so nothing is dropped behind it
    obtain ⟨gap, hsplit, hgap⟩ : ∃ gap, s.dropWhile inNumber = gap ++ trim (s.dropWhile inNumber) ∧
        ∀ c ∈ gap, isBlank c = true := by
      refine exists_gap fun c hc => getLast?_lowered_trim text.toList c ?_
      rw [hs, ← List.takeWhile_append_dropWhile (p := inNumber) (l := s), List.getLast?_append, hc,
        Option.some_or]
    refine ⟨whole, places, unit, s.takeWhile inNumber, gap,
      String.ofList (trim (s.dropWhile inNumber)), ?_, hfraction, hgap,
      ByteUnit.ofName?_eq_some_iff.mp hunit⟩
    rw [hs, String.toList_ofList, List.append_assoc, ← hsplit, List.takeWhile_append_dropWhile]
  · cases h

theorem count_saturating (n : Nat) : (saturating n).count.toNat = min n limit :=
  UInt64.toNat_ofNat_of_lt' (Nat.lt_of_le_of_lt (Nat.min_le_right n limit) (by decide))

/-- **How many units**: a natural number is rounded to one of 53 bits, and then nothing is lost. -/
theorem read?_of_spells_natural (h : Spells text whole places unit)
    (hn : valueOf (whole ++ places) = n * tenTo places.length) (hfits : n < beyond) :
    ∃ short, IsShort short ∧ (IsShort n → short = n) ∧ (magnitude whole places).round = short ∧
      read? text = some (saturating (short * unit.factor)) := by
  obtain ⟨short, hshort, hvalue, hexact⟩ :=
    Decimal.exists_short_toMagnitude (k := places.length) hfits
  rw [← hn] at hvalue
  refine ⟨short, hshort, hexact, round_of_value hvalue, ?_⟩
  have hfactor : IsShort unit.factor := by
    rw [← Nat.one_mul unit.factor, ByteUnit.isShort_mul_factor_iff]
    exact isShort_of_lt (by decide)
  have hproduct : ((magnitude whole places).mul (ofNat unit.factor)).value =
      (short * unit.factor : ℕ) := by
    refine value_mul_of_isShort (ByteUnit.isShort_mul_factor_iff.mpr hshort) ?_
    rw [show (magnitude whole places).value = short from hvalue, value_ofNat_of_isShort hfactor,
      Nat.cast_mul]
  rw [read?_of_spells h, hn,
    if_pos ((Nat.mul_lt_mul_right (tenTo_pos places.length)).mpr hfits), round_of_value hproduct]

/-! ### The grammar -/

theorem parse_eq_ok_iff : parse text = .ok size ↔ read? text = some size := by
  unfold parse
  cases read? text with
  | none => exact ⟨nofun, nofun⟩
  | some size' => exact ⟨fun h => by cases h; rfl, fun h => by cases h; rfl⟩

theorem toLower_eq_self {c : Char} (h : inNumber c.toLower = true) : c.toLower = c := by
  rcases toLower_cases c with hself | ⟨⟨hlow, _⟩, heq⟩
  · exact hself
  · rcases inNumber_iff.mp h with hdigit | hpoint
    · have := (isDigit_iff.mp hdigit).2
      omega
    · rw [hpoint] at heq
      exact absurd heq (Nat.ne_of_lt (show 46 < c.toNat + 32 by omega))

/-- **What a byte size is made of**: blanks, digits, points and the letters of the units. -/
theorem mem_of_spells (h : Spells text whole places unit) :
    (∃ c ∈ text.toList, isDigit c = true) ∧ ∀ c ∈ text.toList,
      isBlank c = true ∨ isDigit c = true ∨ c = '.' ∨ c.toLower ∈ ByteUnit.letters := by
  obtain ⟨number, gap, word, htext, hfraction, hgap, hword⟩ := h
  have hin := inNumber_of_isFraction hfraction
  constructor
  · obtain ⟨hdigits, hne, hnumber⟩ := hfraction
    obtain ⟨d, hd⟩ := List.exists_mem_of_ne_nil _ hne
    have hmem : d ∈ number := by
      rcases hnumber with ⟨rfl, rfl⟩ | rfl
      · rwa [List.append_nil] at hd
      · rcases List.mem_append.mp hd with hd | hd
        · exact List.mem_append_left _ hd
        · exact List.mem_append_right _ (List.mem_cons_of_mem _ hd)
    have hlower : d ∈ lowered (trim text.toList) := by
      rw [htext]
      exact List.mem_append_left _ (List.mem_append_left _ hmem)
    obtain ⟨c, hc, rfl⟩ := List.mem_map.mp hlower
    exact ⟨c, mem_of_mem_trim hc, toLower_eq_self (hin _ hmem) ▸ hdigits _ hd⟩
  · intro c hc
    rcases mem_trim_or_isBlank hc with hc | hc
    · have hlower : c.toLower ∈ number ++ gap ++ word.toList := htext ▸ List.mem_map_of_mem hc
      rw [List.mem_append, List.mem_append] at hlower
      rcases hlower with (hnumber | hblank) | hletter
      · have hc := hin _ hnumber
        rw [toLower_eq_self hc] at hc
        exact Or.inr ((inNumber_iff.mp hc).imp id Or.inl)
      · exact Or.inl (isBlank_toLower c ▸ hgap _ hblank)
      · exact Or.inr (Or.inr (Or.inr (ByteUnit.mem_letters hword _ hletter)))
    · exact Or.inl hc

/-- A setting is read as the size itself: the blanks around a text do not matter. -/
theorem setting_read? (text : String) : (Setting.read? text : Option ByteSize) = read? text := by
  change read? (trimmed text) = read? text
  rw [read?, trimmed, String.toList_ofList, trim_trim]
  rfl

/-- **Which texts are byte sizes.** A text is accepted if it spells a fraction that is finite as a
double, with a unit; there is a digit in it then, and nothing but blanks, digits, points and letters
of units. A natural number below `2 ^ 53` is taken as it is, up to the greatest count. Any other text
is refused, with the text in quotes, and a setting that has it keeps its default. -/
theorem accepts_fractions_with_units (text : String) :
    ((∃ size, parse text = .ok size) ↔ ∃ whole places unit, Spells text whole places unit ∧
      valueOf (whole ++ places) < beyond * tenTo places.length) ∧
    ((∃ size, parse text = .ok size) → (∃ c ∈ text.toList, isDigit c = true) ∧
      ∀ c ∈ text.toList,
        isBlank c = true ∨ isDigit c = true ∨ c = '.' ∨ c.toLower ∈ ByteUnit.letters) ∧
    (∀ whole places unit n, Spells text whole places unit →
      valueOf (whole ++ places) = n * tenTo places.length → n < twoTo 53 →
      ∃ size, parse text = .ok size ∧
        size.count.toNat = min (n * unit.factor) (UInt64.size - 1)) ∧
    (∀ message, parse text = .error message → message = "invalid byte size " ++ quoted text) ∧
    ∀ name default, Setting.resolve name (some text) default =
      match parse text with
      | .ok size => (size, Setting.givenEntry name size)
      | .error _ => (default, Setting.rejectedEntry name text default) := by
  have hiff : (∃ size, parse text = .ok size) ↔ ∃ whole places unit,
      Spells text whole places unit ∧ valueOf (whole ++ places) < beyond * tenTo places.length := by
    simp only [parse_eq_ok_iff]
    constructor
    · rintro ⟨size, hread⟩
      obtain ⟨whole, places, unit, hspells⟩ := exists_spells hread
      refine ⟨whole, places, unit, hspells, ?_⟩
      by_contra hbeyond
      rw [read?_of_spells hspells, if_neg hbeyond] at hread
      cases hread
    · rintro ⟨whole, places, unit, hspells, hfits⟩
      exact ⟨_, (read?_of_spells hspells).trans (if_pos hfits)⟩
  refine ⟨hiff, fun h => ?_, fun whole places unit n hspells hn hlt => ?_, fun message h => ?_,
    fun name default => ?_⟩
  · obtain ⟨whole, places, unit, hspells, _⟩ := hiff.mp h
    exact mem_of_spells hspells
  · have hfits : n < beyond := Nat.lt_of_lt_of_le hlt (by decide +kernel)
    obtain ⟨short, _, hexact, _, hread⟩ := read?_of_spells_natural hspells hn hfits
    refine ⟨_, parse_eq_ok_iff.mpr hread, ?_⟩
    rw [count_saturating, hexact (isShort_of_lt hlt), limit]
  · unfold parse at h
    split at h <;> cases h
    rfl
  · unfold Setting.resolve parse
    dsimp only
    rw [setting_read?]
    cases read? text <;> rfl

/-- Blanks on both sides of the number, and the unit in capitals. -/
theorem accepts_blanks_and_capitals : Spells " 64 KB" ['6', '4'] [] .kilo ∧
    ∃ size, parse " 64 KB" = .ok size ∧ size.count.toNat = 65536 := by
  have hspells : Spells " 64 KB" ['6', '4'] [] .kilo :=
    ⟨['6', '4'], [' '], "kb", by decide,
      ⟨List.all_eq_true.mp (by decide), by decide, Or.inl ⟨rfl, rfl⟩⟩,
      List.all_eq_true.mp (by decide), by decide⟩
  exact ⟨hspells,
    (accepts_fractions_with_units " 64 KB").2.2.1 ['6', '4'] [] .kilo 64 hspells (by decide)
      (by decide)⟩

/-! ### Printed sizes -/

/-- A numeral with a word for a unit has the parts that it is put together of. -/
theorem spells_decimal {word : String} (n : Nat) (hword : (word, unit) ∈ ByteUnit.spellings) :
    Spells (decimal n ++ word) (decimal n).toList [] unit := by
  obtain ⟨hne, hdigits⟩ := decimal_isDigit n
  have hchars : ∀ c ∈ (decimal n ++ word).toList, c.toLower = c ∧ isBlank c = false := by
    rw [String.toList_append]
    intro c hc
    rcases List.mem_append.mp hc with hc | hc
    · refine ⟨?_, not_isBlank_of_isDigit (hdigits c hc)⟩
      rcases toLower_cases c with hself | ⟨⟨hlow, _⟩, _⟩
      · exact hself
      · have := (isDigit_iff.mp (hdigits c hc)).2
        omega
    · obtain ⟨hlower, hblank, _⟩ := ByteUnit.of_mem_letters (ByteUnit.mem_letters hword c hc)
      exact ⟨hlower, hblank⟩
  have htrim : trim (decimal n ++ word).toList = (decimal n ++ word).toList :=
    trim_eq_self (fun c hc => (hchars c (List.mem_of_mem_head? hc)).2)
      fun c hc => (hchars c (List.mem_of_getLast? hc)).2
  refine ⟨(decimal n).toList, [], word, ?_, ⟨?_, ?_, Or.inl ⟨rfl, rfl⟩⟩, nofun, hword⟩
  · rw [htrim, lowered_eq_self fun c hc => (hchars c hc).1, String.toList_append,
      List.append_nil]
  · rwa [List.append_nil]
  · rwa [List.append_nil]

/-- The greatest count is a whole number of bytes only. -/
theorem eq_limit {n : Nat} (h : n * unit.factor = limit) : unit.factor = 1 ∧ n = limit := by
  cases unit
  · exact ⟨rfl, by rwa [ByteUnit.factor, Nat.mul_one] at h⟩
  all_goals
    simp only [ByteUnit.factor, limit, UInt64.size] at h
    omega

/-- **Which numerals are read as they are**: those of numbers of 53 bits, and that of the greatest
count, which is rounded up and then cut off. -/
theorem read?_decimal {word : String} (hword : (word, unit) ∈ ByteUnit.spellings)
    (hlt : n * unit.factor < UInt64.size) :
    ∃ size, read? (decimal n ++ word) = some size ∧
      (size.count.toNat = n * unit.factor ↔ IsShort n ∨ n * unit.factor = limit) := by
  have hspells := spells_decimal n hword
  have hn : valueOf ((decimal n).toList ++ []) = n * tenTo ([] : List Char).length := by
    rw [List.append_nil, valueOf_decimal, List.length_nil, tenTo_zero, Nat.mul_one]
  have hfits : n < beyond :=
    Nat.lt_of_le_of_lt (Nat.le_mul_of_pos_right n unit.factor_pos)
      (Nat.lt_trans hlt (by decide +kernel))
  obtain ⟨short, hshort, hexact, hround, hread⟩ := read?_of_spells_natural hspells hn hfits
  refine ⟨_, hread, ?_⟩
  rw [count_saturating]
  have hle : n * unit.factor ≤ limit := Nat.le_sub_one_of_lt hlt
  constructor
  · intro hmin
    rcases Nat.le_total (short * unit.factor) limit with hshort' | hlimit
    · rw [Nat.min_eq_left hshort'] at hmin
      exact Or.inl (Nat.eq_of_mul_eq_mul_right unit.factor_pos hmin ▸ hshort)
    · rw [Nat.min_eq_right hlimit] at hmin
      exact Or.inr hmin.symm
  · rintro (h | h)
    · rw [hexact h, Nat.min_eq_left hle]
    · obtain ⟨hfactor, rfl⟩ := eq_limit h
      have hup : (magnitude (decimal limit).toList []).round = limit + 1 := by
        rw [magnitude, hn]
        decide +kernel
      rw [hfactor, Nat.mul_one, Nat.mul_one, ← hround, hup]
      exact Nat.min_eq_right (Nat.le_succ limit)

/-- A size is a whole number of the units that it is printed in. -/
theorem div_mul_factor (size : ByteSize) :
    size.count.toNat / size.unit.factor * size.unit.factor = size.count.toNat := by
  refine Nat.div_mul_cancel ?_
  unfold ByteSize.unit
  generalize hfind : ByteUnit.descending.find? _ = found
  cases found with
  | none => exact Nat.one_dvd _
  | some u =>
    have hpass := List.find?_some hfind
    rw [Bool.and_eq_true, beq_iff_eq] at hpass
    exact Nat.dvd_of_mod_eq_zero hpass.2

/-- **Printed sizes are read back** if they have at most 53 bits up to the zeros at their end, and
so are numerals with a unit; of the others, only the greatest count is. -/
theorem reads_back_short_counts :
    (∀ size : ByteSize, parse size.toText = .ok size ↔
      IsShort size.count.toNat ∨ size.count.toNat = UInt64.size - 1) ∧
    ∀ n word unit, (word, unit) ∈ ByteUnit.spellings → n * unit.factor < UInt64.size →
      ∃ size, parse (decimal n ++ word) = .ok size ∧ (size.count.toNat = n * unit.factor ↔
        IsShort n ∨ n * unit.factor = UInt64.size - 1) := by
  refine ⟨fun size => ?_, fun n word unit hword hlt => ?_⟩
  · have hcount := div_mul_factor size
    have hshort : IsShort size.count.toNat ↔ IsShort (size.count.toNat / size.unit.factor) := by
      rw [← hcount, ByteUnit.isShort_mul_factor_iff, hcount]
    obtain ⟨size', hread, hiff⟩ := read?_decimal
      (n := size.count.toNat / size.unit.factor) size.unit.name_mem_spellings
      (by rw [hcount]; exact size.count.toNat_lt)
    rw [hcount, ← hshort] at hiff
    rw [parse_eq_ok_iff, show read? size.toText = some size' from hread, Option.some.injEq]
    refine Iff.trans ?_ hiff
    exact ⟨fun h => congrArg (fun s : ByteSize => s.count.toNat) h,
      fun h => congrArg ByteSize.mk (UInt64.toNat_inj.mp h)⟩
  · obtain ⟨size, hread, hiff⟩ := read?_decimal hword hlt
    exact ⟨size, parse_eq_ok_iff.mpr hread, hiff⟩

theorem reads_back_three_kilobytes : IsShort 3 ∧
    ∃ size, parse (decimal 3 ++ "kb") = .ok size ∧ size.count.toNat = 3072 := by
  have hshort : IsShort 3 := isShort_of_lt (by decide)
  obtain ⟨size, hread, hiff⟩ := reads_back_short_counts.2 3 "kb" .kilo (by decide) (by decide)
  exact ⟨hshort, size, hread, hiff.mpr (Or.inl hshort)⟩

/-- An odd number of 54 bits is printed as it is, and the even one below it is read. -/
theorem odd_count_is_not_read_back :
    (⟨9007199254740993⟩ : ByteSize).toText = "9007199254740993b" ∧
    parse "9007199254740993b" = .ok ⟨9007199254740992⟩ ∧
    ¬∀ size : ByteSize, parse size.toText = .ok size := by
  have hread : parse "9007199254740993b" = .ok ⟨9007199254740992⟩ := by
    rw [parse_eq_ok_iff]
    decide +kernel
  have htext : (⟨9007199254740993⟩ : ByteSize).toText = "9007199254740993b" := by
    decide +kernel
  refine ⟨htext, hread, fun h => ?_⟩
  have hsame := h ⟨9007199254740993⟩
  rw [htext, hread] at hsame
  exact absurd (Except.ok.inj hsame) (by decide)

end ByteSize
end RangeSync
