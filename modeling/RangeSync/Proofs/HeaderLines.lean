import RangeSync.Descriptor.Reader
import RangeSync.Proofs.Utf8

/-!
# What a header line says

A line is read in four steps, one after the other: its bytes are taken for a text, what does not
count at the end is dropped, the rest is cut around a separator, and for two keys the value is taken
for a count. Each step is a loop over the text and says what it does to it, but not what the line has
to look like. So each of them is first turned around: what is left when the end is dropped
(`RangeSync.Text.dropEndWhile_eq_iff`), where a text is cut (`RangeSync.Text.cutAround?_eq_some_iff`)
and which texts are counts (`RangeSync.Text.count?_trim_eq_some_iff`).

A line is then one of three things, and each is said without the reader: it is blank
(`RangeSync.HeaderLine.IsBlank`), it has a key and a value (`RangeSync.HeaderLine.IsField`), or it
says nothing (`RangeSync.HeaderLine.IsMalformed`). **What is read from a line is which of them it
is**, and there is no fourth (`RangeSync.HeaderLine.read_eq_blank_iff`, `read_eq_field_iff` and
`read_eq_error_iff`).
-/

namespace RangeSync

/-! ### Counts -/

namespace Text

section Counts

variable {s digits : List Char} {bound n : Nat}

/-- A numeral is a row of digits, at least one. -/
theorem numeral?_eq_some_iff : numeral? digits = some n ↔
    digits ≠ [] ∧ (∀ c ∈ digits, isDigit c = true) ∧ valueOf digits = n := by
  unfold numeral?
  split
  · rename_i h
    rw [Bool.and_eq_true, Bool.not_eq_true', List.isEmpty_eq_false_iff, List.all_eq_true] at h
    rw [Option.some.injEq]
    exact ⟨fun hn => ⟨h.1, h.2, hn⟩, fun hn => hn.2.2⟩
  · rename_i h
    rw [Bool.and_eq_true, Bool.not_eq_true', List.isEmpty_eq_false_iff, List.all_eq_true] at h
    exact ⟨nofun, fun hn => absurd ⟨hn.1, hn.2.1⟩ h⟩

/-- **The text spells a number**: digits, at least one, with a plus sign or without, and with blanks
around it or without. -/
def SpellsCount (s : List Char) (n : Nat) : Prop :=
  ∃ before sign digits after, s = before ++ (sign ++ digits) ++ after ∧
    (∀ c ∈ before, isBlank c = true) ∧ (∀ c ∈ after, isBlank c = true) ∧
    (sign = [] ∨ sign = ['+']) ∧ digits ≠ [] ∧ (∀ c ∈ digits, isDigit c = true) ∧
    valueOf digits = n

/-- A count is a numeral below the bound, with a plus sign or without. -/
theorem count?_eq_some_iff : count? bound s = some n ↔ ∃ sign digits, s = sign ++ digits ∧
    (sign = [] ∨ sign = ['+']) ∧ numeral? digits = some n ∧ n < bound := by
  have hfilter (digits : List Char) :
      (numeral? digits).filter (· < bound) = some n ↔ numeral? digits = some n ∧ n < bound := by
    rw [Option.filter_eq_some_iff, decide_eq_true_iff]
  unfold count?
  dsimp only
  rw [hfilter]
  constructor
  · intro h
    split at h
    · exact ⟨['+'], _, rfl, Or.inr rfl, h⟩
    · exact ⟨[], _, rfl, Or.inl rfl, h⟩
  · rintro ⟨sign, digits, rfl, rfl | rfl, h⟩
    · split
      · -- no digit is a sign
        rename_i rest hsign
        obtain ⟨_, hdigits, _⟩ := numeral?_eq_some_iff.mp h.1
        rw [List.nil_append] at hsign
        exact absurd (hdigits '+' (hsign ▸ List.mem_cons_self)) (by decide)
      · exact h
    · exact h

/-- **What is read as a count spells it**, and is below the bound. -/
theorem count?_trim_eq_some_iff :
    count? bound (trim s) = some n ↔ SpellsCount s n ∧ n < bound := by
  rw [count?_eq_some_iff]
  constructor
  · rintro ⟨sign, digits, htrim, hsign, hnumeral, hbound⟩
    obtain ⟨hne, hdigits, hvalue⟩ := numeral?_eq_some_iff.mp hnumeral
    obtain ⟨after, hs, hafter, _⟩ := dropEndWhile_eq_iff.mp htrim
    refine ⟨⟨s.takeWhile isBlank, sign, digits, after, ?_, List.all_eq_true.mp List.all_takeWhile,
      hafter, hsign, hne, hdigits, hvalue⟩, hbound⟩
    rw [List.append_assoc, ← hs, trimStart, List.takeWhile_append_dropWhile]
  · rintro ⟨⟨before, sign, digits, after, rfl, hbefore, hafter, hsign, hne, hdigits, hvalue⟩,
      hbound⟩
    refine ⟨sign, digits, trim_eq hbefore hafter ?_ ?_ ?_, hsign,
      numeral?_eq_some_iff.mpr ⟨hne, hdigits, hvalue⟩, hbound⟩
    · intro c hc
      rcases hsign with rfl | rfl
      · exact not_isBlank_of_isDigit (hdigits c (List.mem_of_mem_head? hc))
      · cases hc
        decide
    · intro c hc
      rw [List.getLast?_append, List.getLast?_eq_some_getLast hne, Option.some_or] at hc
      cases hc
      exact not_isBlank_of_isDigit (hdigits _ (List.getLast_mem hne))
    · exact fun hnil => hne (List.append_eq_nil_iff.mp hnil).2

end Counts

end Text

/-! ### Lines -/

namespace HeaderLine

open Text

variable {number : Nat} {raw : List UInt8} {kept : List Char} {key value text : String}
  {error : DescriptorError}

/-- What ends the key of a header. -/
def separator : List Char := [':', ' ']

/-- A separator has characters. -/
theorem separator_ne_nil : separator ≠ [] :=
  List.cons_ne_nil _ _

/-- **The line is blank**: there are only line ends and spaces in it. -/
def IsBlank (raw : List UInt8) : Prop :=
  ∀ b ∈ raw, b = 10 ∨ b = 13 ∨ b = 32

/-- **The line is a text**, and so much is left of it when the line ends and spaces at its end are
dropped. It is not blank. -/
def Keeps (raw : List UInt8) (kept : List Char) : Prop :=
  ∃ dropped, encode (String.ofList (kept ++ dropped)) = raw ∧
    (∀ c ∈ dropped, isTrailing c = true) ∧ ∃ c, kept.getLast? = some c ∧ isTrailing c = false

/-- **The line has a key and a value**, with the first separator between them. -/
def IsField (raw : List UInt8) (key value : String) : Prop :=
  Keeps raw (key.toList ++ separator ++ value.toList) ∧
    ∀ front back, key.toList ++ separator ++ value.toList = front ++ separator ++ back →
      key.toList.length ≤ front.length

/-- **The line says nothing**, and this is how it is shown. -/
inductive IsMalformed (raw : List UInt8) : String → Prop
  /-- The bytes are not a text. -/
  | notText : (∀ text, encode text ≠ raw) → IsMalformed raw (decodeLossy raw)
  /-- There is no separator in it. -/
  | noSeparator {kept : List Char} : Keeps raw kept →
      (∀ front back, kept ≠ front ++ separator ++ back) → IsMalformed raw (String.ofList kept)

/-! ### What is read -/

/-- The characters that do not count at the end. -/
theorem isTrailing_iff {c : Char} : isTrailing c = true ↔ c = '\n' ∨ c = '\r' ∨ c = ' ' := by
  rw [isTrailing, Bool.or_eq_true, Bool.or_eq_true, beq_iff_eq, beq_iff_eq, beq_iff_eq, or_assoc]

/-- **A line is blank** if nothing is left of its text. -/
theorem isBlank_iff : IsBlank raw ↔
    ∃ line, encode line = raw ∧ dropEndWhile isTrailing line.toList = [] := by
  have hnil (line : String) : dropEndWhile isTrailing line.toList = [] ↔
      ∀ c ∈ line.toList, isTrailing c = true := by
    rw [dropEndWhile_eq_iff]
    constructor
    · rintro ⟨dropped, hline, hall, _⟩
      rw [hline]
      exact hall
    · exact fun hall => ⟨line.toList, rfl, hall, nofun⟩
  simp only [hnil]
  constructor
  · intro h
    refine ⟨String.ofList (raw.map fun b => Char.ofNat b.toNat), ?_, ?_⟩
    · rw [encode, String.toList_ofList]
      induction raw with
      | nil => rfl
      | cons b rest ih =>
        rw [List.map_cons, List.flatMap_cons, ih fun c hc => h c (.tail _ hc)]
        obtain rfl | rfl | rfl := h b (.head _) <;> rfl
    · rw [String.toList_ofList]
      intro c hc
      obtain ⟨b, hb, rfl⟩ := List.mem_map.mp hc
      obtain rfl | rfl | rfl := h b hb <;> rfl
  · rintro ⟨line, rfl, hall⟩ b hb
    obtain ⟨c, hc, hb⟩ := List.mem_flatMap.mp hb
    obtain rfl | rfl | rfl := isTrailing_iff.mp (hall c hc)
    · exact Or.inl (List.mem_singleton.mp hb)
    · exact Or.inr (Or.inl (List.mem_singleton.mp hb))
    · exact Or.inr (Or.inr (List.mem_singleton.mp hb))

/-- A text is not blank if something is left of it. -/
theorem keeps_iff : Keeps raw kept ↔
    kept ≠ [] ∧ ∃ line, encode line = raw ∧ dropEndWhile isTrailing line.toList = kept := by
  constructor
  · rintro ⟨dropped, hraw, hall, c, hc, hlast⟩
    have hne : kept ≠ [] := by
      rintro rfl
      cases hc
    refine ⟨hne, _, hraw, ?_⟩
    rw [String.toList_ofList]
    refine dropEndWhile_eq_iff.mpr ⟨dropped, rfl, hall, fun a ha => ?_⟩
    rw [← Option.some.inj (hc.symm.trans ha)]
    exact hlast
  · rintro ⟨hne, line, hraw, hkept⟩
    obtain ⟨dropped, hline, hall, hlast⟩ := dropEndWhile_eq_iff.mp hkept
    refine ⟨dropped, ?_, hall, kept.getLast hne, List.getLast?_eq_some_getLast hne,
      hlast _ (List.getLast?_eq_some_getLast hne)⟩
    rw [← hline, String.ofList_toList]
    exact hraw

/-- **What is read from a line is what it is**: it is blank, it has a key and a value, or it says
nothing. -/
theorem read_spec (number : Nat) (raw : List UInt8) :
    (read number raw = .ok .blank ∧ IsBlank raw) ∨
    (∃ key value, read number raw = .ok (.field key value) ∧ IsField raw key value) ∨
    ∃ text, read number raw = .error (.malformedLine number text) ∧ IsMalformed raw text := by
  unfold read
  rcases hline : decode? raw with _ | line
  · refine Or.inr (Or.inr ⟨_, rfl, .notText fun text htext => ?_⟩)
    cases hline.symm.trans (decode?_eq_some_iff.mpr htext)
  have hraw := decode?_eq_some_iff.mp hline
  dsimp only
  rcases hkept : dropEndWhile isTrailing line.toList with _ | ⟨c, rest⟩
  · exact Or.inl ⟨rfl, isBlank_iff.mpr ⟨line, hraw, hkept⟩⟩
  have hkeeps : Keeps raw (c :: rest) := keeps_iff.mpr ⟨nofun, line, hraw, hkept⟩
  dsimp only
  rcases hcut : cutAround? [':', ' '] (c :: rest) with _ | ⟨key, value⟩
  · have hno := (cutAround?_eq_none_iff (List.cons_ne_nil _ _)).mp hcut
    exact Or.inr (Or.inr ⟨_, rfl, .noSeparator hkeeps hno⟩)
  · obtain ⟨hsplit, hfirst⟩ := (cutAround?_eq_some_iff (List.cons_ne_nil _ _)).mp hcut
    refine Or.inr (Or.inl ⟨_, _, rfl, ?_⟩)
    unfold IsField
    rw [String.toList_ofList, String.toList_ofList]
    rw [hsplit] at hkeeps hfirst
    exact ⟨hkeeps, hfirst⟩

/-- A blank line is read as one. -/
theorem read_of_isBlank (h : IsBlank raw) (number : Nat) : read number raw = .ok .blank := by
  obtain ⟨line, hraw, hnil⟩ := isBlank_iff.mp h
  unfold read
  rw [decode?_eq_some_iff.mpr hraw]
  dsimp only
  rw [hnil]

/-- What is read from a text with something left of it. -/
theorem read_of_keeps (h : Keeps raw kept) (number : Nat) :
    read number raw =
      match cutAround? separator kept with
      | none => .error (.malformedLine number (String.ofList kept))
      | some (key, value) => .ok (.field (String.ofList key) (String.ofList value)) := by
  obtain ⟨hne, line, hraw, hkept⟩ := keeps_iff.mp h
  obtain ⟨c, rest, rfl⟩ := List.exists_cons_of_ne_nil hne
  unfold read
  rw [decode?_eq_some_iff.mpr hraw]
  dsimp only
  rw [hkept]
  rfl

/-- The key and the value of a line are read from it. -/
theorem read_of_isField (h : IsField raw key value) (number : Nat) :
    read number raw = .ok (.field key value) := by
  rw [read_of_keeps h.1, (cutAround?_eq_some_iff separator_ne_nil).mpr ⟨rfl, h.2⟩]
  dsimp only
  rw [String.ofList_toList, String.ofList_toList]

/-- A line that says nothing is refused. -/
theorem read_of_isMalformed (h : IsMalformed raw text) (number : Nat) :
    read number raw = .error (.malformedLine number text) := by
  cases h with
  | notText hno =>
    unfold read
    rw [Option.eq_none_iff_forall_ne_some.mpr fun text htext =>
      hno text (decode?_eq_some_iff.mp htext)]
  | noSeparator hkeeps hno =>
    rw [read_of_keeps hkeeps, (cutAround?_eq_none_iff separator_ne_nil).mpr hno]

/-- **A line is read as blank** if it is. -/
theorem read_eq_blank_iff : read number raw = .ok .blank ↔ IsBlank raw := by
  refine ⟨fun h => ?_, fun h => read_of_isBlank h number⟩
  rcases read_spec number raw with ⟨_, hblank⟩ | ⟨key, value, hread, _⟩ | ⟨text, hread, _⟩
  · exact hblank
  · cases hread.symm.trans h
  · cases hread.symm.trans h

/-- **A key and a value are read** from the line that has them. -/
theorem read_eq_field_iff : read number raw = .ok (.field key value) ↔ IsField raw key value := by
  refine ⟨fun h => ?_, fun h => read_of_isField h number⟩
  rcases read_spec number raw with ⟨hread, _⟩ | ⟨key', value', hread, hfield⟩ | ⟨text, hread, _⟩
  · cases hread.symm.trans h
  · cases hread.symm.trans h
    exact hfield
  · cases hread.symm.trans h

/-- **A line is refused** if it says nothing. -/
theorem read_eq_error_iff : read number raw = .error error ↔
    ∃ text, IsMalformed raw text ∧ error = .malformedLine number text := by
  constructor
  · intro h
    rcases read_spec number raw with ⟨hread, _⟩ | ⟨key, value, hread, _⟩ | ⟨text, hread, hbad⟩
    · cases hread.symm.trans h
    · cases hread.symm.trans h
    · cases hread.symm.trans h
      exact ⟨text, hbad, rfl⟩
  · rintro ⟨text, hbad, rfl⟩
    exact read_of_isMalformed hbad number

end HeaderLine

end RangeSync
