import RangeSync.Proofs.HeaderLines

/-!
# The grammar of a descriptor

A descriptor is read line by line, and the reader stops at the first line that is blank or that it
cannot use. So it is not obvious what it makes of bytes as a whole, and it is even less so that it
leaves alone what comes after the blank line: that may be anything, and the last line before it need
not even have an end.

The bytes are cut into lines beforehand (`RangeSync.Descriptor.lines`). Each line is blank, a header
(`RangeSync.Descriptor.IsHeader`) or an offence (`RangeSync.Descriptor.Offends`), never two of them,
and headers are passed over (`RangeSync.Descriptor.Headers.readLines`). What is read is then decided
by the first line that is no header, and by the version that the headers give
(`RangeSync.Descriptor.Amounts`, `RangeSync.Descriptor.read_eq_iff`).

The main result is that **the reader accepts its grammar and nothing else, and stops behind the blank
line** (`RangeSync.Descriptor.reads_exactly`). What comes after the blank line can be replaced, if
that line has an end. If it has none, nothing comes after it, and what is put there belongs to it
(`RangeSync.Descriptor.unterminated_blank_line_grows`).
-/

namespace RangeSync

/-- Answers and faults can be compared. -/
instance decidableEqExcept {ε α : Type} [DecidableEq ε] [DecidableEq α] :
    DecidableEq (Except ε α)
  | .ok a, .ok a' =>
    if h : a = a' then isTrue (congrArg Except.ok h) else isFalse fun heq => h (Except.ok.inj heq)
  | .error e, .error e' =>
    if h : e = e' then isTrue (congrArg Except.error h)
    else isFalse fun heq => h (Except.error.inj heq)
  | .ok _, .error _ => isFalse nofun
  | .error _, .ok _ => isFalse nofun

namespace Descriptor

open Text

variable {d d' : Descriptor} {bytes raw blank rest : List UInt8} {number : Nat}
  {key key' value : String} {more good after : List (List UInt8)} {fields : List (String × String)}
  {error : DescriptorError} {result : Except DescriptorError (Descriptor × List UInt8)}

/-! ### Cutting into lines -/

/-- **The lines of the bytes**: they are cut after every newline, and the last line may have none. -/
def lines : List UInt8 → List (List UInt8)
  | [] => []
  | b :: rest =>
    if b = newline then [b] :: lines rest
    else
      match lines rest with
      | [] => [[b]]
      | line :: more => (b :: line) :: more

@[simp] theorem lines_nil : lines [] = [] := rfl

/-- The first line, and then the lines of what comes after it. -/
theorem lines_cons (b : UInt8) (rest : List UInt8) :
    lines (b :: rest) = (firstLine (b :: rest)).1 :: lines (firstLine (b :: rest)).2 := by
  induction rest generalizing b with
  | nil =>
    unfold lines firstLine
    split <;> rfl
  | cons c more ih =>
    rw [lines, firstLine]
    split
    · rfl
    · rw [ih c]

/-- **Nothing is lost** when the bytes are cut. -/
theorem flatten_lines (bytes : List UInt8) : (lines bytes).flatten = bytes := by
  induction bytes with
  | nil => rfl
  | cons b rest ih =>
    unfold lines
    split
    · rw [List.flatten_cons, ih]
      rfl
    · split
      · rename_i hnil
        rw [hnil] at ih
        rw [← ih]
        rfl
      · rename_i line more hcons
        rw [hcons, List.flatten_cons] at ih
        rw [List.flatten_cons, List.cons_append, ih]

/-- The first line has a newline, unless nothing comes after it. -/
theorem getLast?_firstLine (bytes : List UInt8) (h : (firstLine bytes).2 ≠ []) :
    (firstLine bytes).1.getLast? = some newline := by
  induction bytes with
  | nil => exact absurd rfl h
  | cons b rest ih =>
    unfold firstLine at h ⊢
    split
    · rename_i hb
      rw [hb]
      rfl
    · rename_i hb
      rw [if_neg hb] at h
      rw [List.getLast?_cons, ih h]
      rfl

/-- The first line ends at its newline, whatever comes after it. -/
theorem firstLine_line_append (bytes other : List UInt8)
    (h : (firstLine bytes).1.getLast? = some newline) :
    firstLine ((firstLine bytes).1 ++ other) = ((firstLine bytes).1, other) := by
  induction bytes with
  | nil => cases h
  | cons b rest ih =>
    by_cases hb : b = newline
    · rw [firstLine, if_pos hb, List.singleton_append, firstLine, if_pos hb]
    · rw [firstLine, if_neg hb] at h ⊢
      dsimp only at h ⊢
      rw [List.getLast?_cons] at h
      rw [List.cons_append, firstLine, if_neg hb, ih]
      rcases hrest : (firstLine rest).1.getLast? with _ | c
      · rw [hrest] at h
        exact absurd (Option.some.inj h) hb
      · rw [hrest] at h
        exact h

/-- **What comes after a newline may be replaced** without the lines before it being cut
differently. -/
theorem lines_replace {line : List UInt8} {after : List (List UInt8)}
    (h : lines bytes = good ++ line :: after) (hlast : line.getLast? = some newline)
    (other : List UInt8) : lines (good.flatten ++ line ++ other) = good ++ line :: lines other := by
  have hline {b : UInt8} {rest : List UInt8}
      (hlast : (firstLine (b :: rest)).1.getLast? = some newline) (other : List UInt8) :
      lines ((firstLine (b :: rest)).1 ++ other) =
        (firstLine (b :: rest)).1 :: lines other := by
    have hsame := firstLine_line_append (b :: rest) other hlast
    have hne : (firstLine (b :: rest)).1 ≠ [] := by
      intro hnil
      rw [hnil] at hlast
      cases hlast
    obtain ⟨c, more, hcons⟩ := List.exists_cons_of_ne_nil hne
    rw [hcons] at hsame ⊢
    rw [List.cons_append] at hsame ⊢
    rw [lines_cons, hsame]
  induction good generalizing bytes with
  | nil =>
    obtain _ | ⟨b, rest⟩ := bytes
    · cases h
    · rw [lines_cons, List.nil_append, List.cons.injEq] at h
      obtain ⟨rfl, _⟩ := h
      exact hline hlast other
  | cons first good ih =>
    obtain _ | ⟨b, rest⟩ := bytes
    · cases h
    · rw [lines_cons, List.cons_append, List.cons.injEq] at h
      obtain ⟨rfl, hrest⟩ := h
      have hnewline := getLast?_firstLine (b :: rest) fun hnil => by
        rw [hnil] at hrest
        exact absurd hrest.symm (List.append_ne_nil_of_right_ne_nil _ (List.cons_ne_nil _ _))
      rw [List.flatten_cons, List.append_assoc, List.append_assoc, hline hnewline,
        ← List.append_assoc, ih hrest]
      rfl

/-- **Reading goes line by line.** -/
theorem readLines_of_lines (h : lines bytes = raw :: more) (d : Descriptor) (number : Nat) :
    lines more.flatten = more ∧ readLines d number bytes =
      match HeaderLine.read number raw with
      | .error e => .error e
      | .ok .blank => .ok (d, more.flatten)
      | .ok (.field key value) =>
        match d.insert key value with
        | .error e => .error e
        | .ok d => readLines d (number + 1) more.flatten := by
  obtain _ | ⟨b, rest⟩ := bytes
  · cases h
  · rw [lines_cons, List.cons.injEq] at h
    obtain ⟨rfl, rfl⟩ := h
    rw [flatten_lines, readLines]
    exact ⟨rfl, rfl⟩

/-! ### Headers and offences -/

/-- The value of this key is a count. -/
theorem isCounted_iff : isCounted key = true ↔ key = "Length" ∨ key = "Blocksize" := by
  rw [isCounted, Bool.or_eq_true, beq_iff_eq, beq_iff_eq, or_comm]

/-- **The line is a header**: it has a key and a value, and if the value is to be a count, it is
one. -/
def IsHeader (raw : List UInt8) (key value : String) : Prop :=
  HeaderLine.IsField raw key value ∧ (key = "Length" ∨ key = "Blocksize" →
    ∃ n, SpellsCount value.toList n ∧ n < UInt64.size)

/-- **The line offends**, and this is the error. -/
inductive Offends (number : Nat) (raw : List UInt8) : DescriptorError → Prop
  /-- It says nothing. -/
  | malformed {text : String} : HeaderLine.IsMalformed raw text →
      Offends number raw (.malformedLine number text)
  /-- Its value is to be a count, and is none. -/
  | uncounted {key value : String} : HeaderLine.IsField raw key value →
      (key = "Length" ∨ key = "Blocksize") →
      (∀ n, SpellsCount value.toList n → UInt64.size ≤ n) →
      Offends number raw (.invalidInteger key value)

/-- A value is taken unless it is to be a count and is none. -/
theorem insert_spec (d : Descriptor) (key value : String) :
    (∃ d', d.insert key value = .ok d' ∧ (key = "Length" ∨ key = "Blocksize" →
      ∃ n, SpellsCount value.toList n ∧ n < UInt64.size)) ∨
    d.insert key value = .error (.invalidInteger key value) ∧
      (key = "Length" ∨ key = "Blocksize") ∧
      ∀ n, SpellsCount value.toList n → UInt64.size ≤ n := by
  unfold insert
  by_cases hcounted : isCounted key = true
  · rw [if_pos hcounted]
    rcases hcount : count? UInt64.size (trim value.toList) with _ | n
    · refine Or.inr ⟨rfl, isCounted_iff.mp hcounted, fun n hn => Nat.le_of_not_lt fun hlt => ?_⟩
      cases hcount.symm.trans (count?_trim_eq_some_iff.mpr ⟨hn, hlt⟩)
    · exact Or.inl ⟨_, rfl, fun _ => ⟨n, count?_trim_eq_some_iff.mp hcount⟩⟩
  · rw [if_neg hcounted]
    exact Or.inl ⟨_, rfl, fun h => absurd (isCounted_iff.mpr h) hcounted⟩

/-- The value of a header is taken. -/
theorem IsHeader.exists_insert (h : IsHeader raw key value) (d : Descriptor) :
    ∃ d', d.insert key value = .ok d' := by
  rcases insert_spec d key value with ⟨d', hinsert, _⟩ | ⟨_, hcounted, hno⟩
  · exact ⟨d', hinsert⟩
  · obtain ⟨n, hn, hlt⟩ := h.2 hcounted
    exact absurd (hno n hn) (Nat.not_le_of_lt hlt)

/-- **Every line is blank, a header or an offence.** -/
theorem line_cases (number : Nat) (raw : List UInt8) :
    HeaderLine.IsBlank raw ∨ (∃ key value, IsHeader raw key value) ∨
      ∃ error, Offends number raw error := by
  rcases HeaderLine.read_spec number raw with ⟨_, hblank⟩ | ⟨key, value, _, hfield⟩ | ⟨text, _, h⟩
  · exact Or.inl hblank
  · rcases insert_spec empty key value with ⟨_, _, hcount⟩ | ⟨_, hcounted, hno⟩
    · exact Or.inr (Or.inl ⟨key, value, hfield, hcount⟩)
    · exact Or.inr (Or.inr ⟨_, .uncounted hfield hcounted hno⟩)
  · exact Or.inr (Or.inr ⟨_, .malformed h⟩)

/-- A key and a value that is taken make a header. -/
theorem isHeader_of_insert (hfield : HeaderLine.IsField raw key value)
    (hinsert : d.insert key value = .ok d') : IsHeader raw key value := by
  refine ⟨hfield, ?_⟩
  rcases insert_spec d key value with ⟨_, _, hcount⟩ | ⟨herror, _⟩
  · exact hcount
  · cases hinsert.symm.trans herror

/-- A header is not blank. -/
theorem IsHeader.not_isBlank (h : IsHeader raw key value) : ¬ HeaderLine.IsBlank raw := by
  intro hblank
  have hread := HeaderLine.read_of_isField h.1 0
  cases hread.symm.trans (HeaderLine.read_of_isBlank hblank 0)

/-- A header does not offend. -/
theorem IsHeader.not_offends (h : IsHeader raw key value) : ¬ Offends number raw error := by
  intro hoffends
  have hread := HeaderLine.read_of_isField h.1 0
  cases hoffends with
  | malformed hbad => cases hread.symm.trans (HeaderLine.read_of_isMalformed hbad 0)
  | uncounted hfield hcounted hno =>
    cases hread.symm.trans (HeaderLine.read_of_isField hfield 0)
    obtain ⟨n, hn, hlt⟩ := h.2 hcounted
    exact Nat.not_le_of_lt hlt (hno n hn)

/-! ### Rows of headers -/

/-- The lines are headers, with these keys and values. -/
inductive Headers : List (List UInt8) → List (String × String) → Prop
  | nil : Headers [] []
  | cons {raw : List UInt8} {key value : String} {more : List (List UInt8)}
      {fields : List (String × String)} :
      IsHeader raw key value → Headers more fields → Headers (raw :: more) ((key, value) :: fields)

/-- Among headers there is no blank line and no offence. -/
theorem Headers.forall_mem (h : Headers good fields) :
    ∀ raw ∈ good, ¬ HeaderLine.IsBlank raw ∧ ∀ number error, ¬ Offends number raw error := by
  induction h with
  | nil => exact List.forall_mem_nil _
  | cons hheader _ ih =>
    exact List.forall_mem_cons.mpr
      ⟨⟨hheader.not_isBlank, fun _ _ => hheader.not_offends⟩, ih⟩

/-- **Lines are headers up to the first** that is blank or offends. -/
theorem exists_headers (rows : List (List UInt8)) (number : Nat) :
    (∃ fields, Headers rows fields) ∨
    ∃ good fields raw after, rows = good ++ raw :: after ∧ Headers good fields ∧
      (HeaderLine.IsBlank raw ∨ ∃ error, Offends (number + good.length) raw error) := by
  induction rows generalizing number with
  | nil => exact Or.inl ⟨[], .nil⟩
  | cons row rows ih =>
    rcases line_cases number row with hblank | ⟨key, value, hheader⟩ | hoffends
    · exact Or.inr ⟨[], [], row, rows, rfl, .nil, Or.inl hblank⟩
    · rcases ih (number + 1) with ⟨fields, hall⟩ | ⟨good, fields, raw, after, rfl, hgood, hstop⟩
      · exact Or.inl ⟨_, .cons hheader hall⟩
      · refine Or.inr ⟨_, _, raw, after, rfl, .cons hheader hgood, ?_⟩
        rw [List.length_cons, Nat.add_comm good.length, ← Nat.add_assoc]
        exact hstop
    · exact Or.inr ⟨[], [], row, rows, rfl, .nil, Or.inr hoffends⟩

/-- The descriptor with more headers, in order. -/
def insertAll (d : Descriptor) : List (String × String) → Except DescriptorError Descriptor
  | [] => .ok d
  | (key, value) :: rest =>
    match d.insert key value with
    | .error e => .error e
    | .ok d => d.insertAll rest

/-- **Headers are read one after the other**, and then comes the rest. -/
theorem Headers.readLines (hgood : Headers good fields) (h : lines bytes = good ++ more)
    (d : Descriptor) (number : Nat) :
    ∃ d', d.insertAll fields = .ok d' ∧ lines more.flatten = more ∧
      Descriptor.readLines d number bytes =
        Descriptor.readLines d' (number + good.length) more.flatten := by
  induction hgood generalizing bytes d number with
  | nil =>
    rw [List.nil_append] at h
    refine ⟨d, rfl, ?_, ?_⟩
    · rw [← h, flatten_lines]
    · rw [← h, flatten_lines]
      rfl
  | @cons raw key value good fields hheader _ ih =>
    obtain ⟨hlines, hstep⟩ := readLines_of_lines h d number
    obtain ⟨d₁, hinsert⟩ := hheader.exists_insert d
    obtain ⟨d', hall, hmore, hrest⟩ := ih hlines d₁ (number + 1)
    refine ⟨d', ?_, hmore, ?_⟩
    · rw [insertAll, hinsert]
      exact hall
    · rw [hstep, HeaderLine.read_of_isField hheader.1]
      dsimp only
      rw [hinsert]
      dsimp only
      rw [hrest, List.length_cons, Nat.add_assoc, Nat.add_comm 1]

/-! ### The version -/

/-- The value that a key was given last. -/
def lastValue? (fields : List (String × String)) (key : String) : Option String :=
  fields.reverse.lookup key

/-- What is found for a key is given by the first pair, if it is for that key. -/
theorem lookup_cons_eq_ite {α : Type} (key k : String) (u : α) (rest : List (String × α)) :
    ((k, u) :: rest).lookup key = if key = k then some u else rest.lookup key := by
  rw [List.lookup_cons]
  by_cases h : key = k
  · rw [if_pos h, beq_iff_eq.mpr h]
  · rw [if_neg h, beq_eq_false_iff_ne.mpr h]

/-- A header that is added is found, and all others are as they were. -/
theorem lookup_insertHeader (key key' : String) (v : HeaderValue)
    (headers : List (String × HeaderValue)) :
    (insertHeader key v headers).lookup key' =
      if key' = key then some v else headers.lookup key' := by
  induction headers with
  | nil => exact lookup_cons_eq_ite key' key v []
  | cons header rest ih =>
    obtain ⟨k, u⟩ := header
    unfold insertHeader
    split
    · exact lookup_cons_eq_ite key' key v _
    · split
      · -- the older value is not found any more
        rename_i hkey
        rw [lookup_cons_eq_ite, lookup_cons_eq_ite, ← hkey]
        split <;> rfl
      · rename_i hkey
        rw [lookup_cons_eq_ite, lookup_cons_eq_ite, ih]
        by_cases h : key' = k
        · rw [if_pos h, if_neg (by rw [h]; exact Ne.symm hkey), if_pos h]
        · rw [if_neg h, if_neg h]

/-- A value that is no count is the text of its key, and all other texts are as they were. -/
theorem text?_insert (h : d.insert key value = .ok d') (hcounted : isCounted key' = false) :
    d'.text? key' = if key' = key then some value else d.text? key' := by
  unfold insert at h
  split at h
  · rename_i hkey
    have hne : key' ≠ key := by
      rintro rfl
      exact absurd hkey (by rw [hcounted]; exact Bool.false_ne_true)
    split at h
    · cases h
      rw [text?, get?, lookup_insertHeader, if_neg hne, if_neg hne]
      rfl
    · cases h
  · cases h
    rw [text?, get?, lookup_insertHeader]
    split <;> rfl

/-- **The text of a key is the value that it was given last.** -/
theorem text?_insertAll (h : d.insertAll fields = .ok d') (hcounted : isCounted key = false) :
    d'.text? key = (lastValue? fields key).or (d.text? key) := by
  induction fields generalizing d with
  | nil =>
    cases h
    rfl
  | cons field fields ih =>
    obtain ⟨k, value⟩ := field
    unfold insertAll at h
    split at h
    · cases h
    · rename_i d₁ hinsert
      rw [ih h, text?_insert hinsert hcounted, lastValue?, lastValue?, List.reverse_cons,
        List.lookup_append, Option.or_assoc, lookup_cons_eq_ite]
      split <;> rfl

/-! ### What bytes amount to -/

/-- **The bytes begin with a header section**: lines that are headers, then the blank line, and then
the rest. -/
def HasSection (bytes : List UInt8) (good : List (List UInt8)) (fields : List (String × String))
    (blank rest : List UInt8) : Prop :=
  Headers good fields ∧ HeaderLine.IsBlank blank ∧
    ∃ after, lines bytes = good ++ blank :: after ∧ rest = after.flatten

/-- **What bytes amount to**, by the first line that is no header. -/
inductive Amounts (bytes : List UInt8) :
    Except DescriptorError (Descriptor × List UInt8) → Prop
  | whole {good : List (List UInt8)} {fields : List (String × String)} {blank rest : List UInt8}
      {d : Descriptor} : HasSection bytes good fields blank rest →
      lastValue? fields "zsync" ≠ some legacyVersion → empty.insertAll fields = .ok d →
      Amounts bytes (.ok (d, rest))
  | legacy {good : List (List UInt8)} {fields : List (String × String)} {blank rest : List UInt8} :
      HasSection bytes good fields blank rest →
      lastValue? fields "zsync" = some legacyVersion →
      Amounts bytes (.error (.unsupportedVersion legacyVersion))
  | offence {good after : List (List UInt8)} {fields : List (String × String)} {bad : List UInt8}
      {error : DescriptorError} : lines bytes = good ++ bad :: after → Headers good fields →
      Offends (good.length + 1) bad error → Amounts bytes (.error error)
  | endless {fields : List (String × String)} : Headers (lines bytes) fields →
      Amounts bytes (.error .missingTerminator)

/-- What the bytes before a section's end are read as, in front of any rest that is cut from them. -/
theorem HasSection.read (h : HasSection bytes good fields blank rest) :
    ∃ d, empty.insertAll fields = .ok d ∧ Descriptor.read bytes =
      if lastValue? fields "zsync" = some legacyVersion then
        .error (.unsupportedVersion legacyVersion)
      else .ok (d, rest) := by
  obtain ⟨hgood, hblank, after, hlines, rfl⟩ := h
  obtain ⟨d, hall, hmore, hpast⟩ := hgood.readLines hlines empty 1
  obtain ⟨_, hstop⟩ := readLines_of_lines hmore d (1 + good.length)
  rw [HeaderLine.read_of_isBlank hblank] at hstop
  have htext : d.text? "zsync" = lastValue? fields "zsync" := by
    rw [text?_insertAll hall rfl]
    exact Option.or_none
  refine ⟨d, hall, ?_⟩
  unfold Descriptor.read
  rw [hpast, hstop]
  dsimp only
  rw [htext]

/-- **What bytes amount to is read from them.** -/
theorem Amounts.read (h : Amounts bytes result) : Descriptor.read bytes = result := by
  cases h with
  | whole hsection hversion hall =>
    obtain ⟨d', hall', hread⟩ := hsection.read
    cases hall.symm.trans hall'
    rw [hread, if_neg hversion]
  | legacy hsection hversion =>
    obtain ⟨_, _, hread⟩ := hsection.read
    rw [hread, if_pos hversion]
  | @offence good after fields bad error hlines hgood hbad =>
    obtain ⟨d, hall, hmore, hpast⟩ := hgood.readLines hlines empty 1
    obtain ⟨_, hstop⟩ := readLines_of_lines hmore d (1 + good.length)
    have herror : readLines d (1 + good.length) (bad :: after).flatten = .error error := by
      rw [hstop, Nat.add_comm]
      cases hbad with
      | malformed hbad => rw [HeaderLine.read_of_isMalformed hbad]
      | @uncounted key value hfield hcounted hno =>
        rw [HeaderLine.read_of_isField hfield]
        rcases insert_spec d key value with ⟨_, _, hcount⟩ | ⟨hinsert, _⟩
        · obtain ⟨n, hn, hlt⟩ := hcount hcounted
          exact absurd (hno n hn) (Nat.not_le_of_lt hlt)
        · dsimp only
          rw [hinsert]
    unfold Descriptor.read
    rw [hpast, herror]
  | endless hgood =>
    obtain ⟨d, _, _, hpast⟩ := hgood.readLines (List.append_nil _).symm empty 1
    unfold Descriptor.read
    rw [hpast, List.flatten_nil, readLines]

/-- All bytes amount to something. -/
theorem exists_amounts (bytes : List UInt8) : ∃ result, Amounts bytes result := by
  rcases exists_headers (lines bytes) 1 with
    ⟨fields, hall⟩ | ⟨good, fields, raw, after, hlines, hgood, hblank | ⟨error, hbad⟩⟩
  · exact ⟨_, .endless hall⟩
  · have hsection : HasSection bytes good fields raw after.flatten :=
      ⟨hgood, hblank, after, hlines, rfl⟩
    obtain ⟨d, hall, _⟩ := hsection.read
    by_cases hversion : lastValue? fields "zsync" = some legacyVersion
    · exact ⟨_, .legacy hsection hversion⟩
    · exact ⟨_, .whole hsection hversion hall⟩
  · exact ⟨_, .offence hlines hgood (Nat.add_comm .. ▸ hbad)⟩

/-- **What is read from bytes is what they amount to.** -/
theorem read_eq_iff : read bytes = result ↔ Amounts bytes result := by
  refine ⟨fun h => ?_, Amounts.read⟩
  obtain ⟨result', hamounts⟩ := exists_amounts bytes
  rw [← h, hamounts.read]
  exact hamounts

/-! ### Behind the blank line -/

/-- The section and the rest make up the bytes. -/
theorem HasSection.eq_append (h : HasSection bytes good fields blank rest) :
    bytes = good.flatten ++ blank ++ rest := by
  obtain ⟨_, _, after, hlines, rfl⟩ := h
  rw [← flatten_lines bytes, hlines, List.flatten_append, List.flatten_cons, List.append_assoc]

/-- The rest of a section is exchanged for another one, if its blank line has an end. -/
theorem HasSection.replace (h : HasSection bytes good fields blank rest)
    (hlast : blank.getLast? = some newline) (other : List UInt8) :
    HasSection (good.flatten ++ blank ++ other) good fields blank other := by
  obtain ⟨hgood, hblank, after, hlines, _⟩ := h
  exact ⟨hgood, hblank, lines other, lines_replace hlines hlast other, (flatten_lines other).symm⟩

/-- Where a line has no end, the bytes have one. -/
theorem eq_nil_of_lines (h : lines bytes = good ++ raw :: after)
    (hlast : raw.getLast? ≠ some newline) : after = [] := by
  induction good generalizing bytes with
  | nil =>
    obtain _ | ⟨b, rest⟩ := bytes
    · cases h
    · rw [lines_cons, List.nil_append, List.cons.injEq] at h
      obtain ⟨rfl, rfl⟩ := h
      by_cases hnil : (firstLine (b :: rest)).2 = []
      · rw [hnil, lines_nil]
      · exact absurd (getLast?_firstLine _ hnil) hlast
  | cons first good ih =>
    obtain _ | ⟨b, rest⟩ := bytes
    · cases h
    · rw [lines_cons, List.cons_append, List.cons.injEq] at h
      exact ih h.2

/-! ### What is written is read -/

/-- The line of a header, as it is written. -/
def written (key value : String) : List UInt8 :=
  encode key ++ encode ": " ++ encode value ++ [newline]

/-- Headers as they are written, the blank line, and then the rest. -/
def writtenAll : List (String × String) → List UInt8 → List UInt8
  | [], rest => newline :: rest
  | (key, value) :: fields, rest => written key value ++ writtenAll fields rest

/-- **The key and the value can be told apart on a line**: they are on one line, no colon is in the
key, and the end of the value counts. -/
structure IsPlain (key value : String) : Prop where
  of_mem_key : ∀ c ∈ key.toList, c ≠ ':' ∧ c ≠ '\n'
  of_mem_value : ∀ c ∈ value.toList, c ≠ '\n'
  last : ∃ c, value.toList.getLast? = some c ∧ HeaderLine.isTrailing c = false

/-- Whether a key and a value can be told apart, by their characters. -/
def isPlain (k v : List Char) : Bool :=
  k.all (fun c => c != ':' && c != '\n') && v.all (· != '\n') &&
    v.getLast?.any (!HeaderLine.isTrailing ·)

/-- The characters show it. -/
theorem isPlain_ofList {k v : List Char} (h : isPlain k v = true) :
    IsPlain (String.ofList k) (String.ofList v) := by
  rw [isPlain, Bool.and_eq_true, Bool.and_eq_true] at h
  obtain ⟨⟨hkey, hvalue⟩, hlast⟩ := h
  obtain ⟨c, hc, hcounts⟩ := (Option.any_eq_true _ _).mp hlast
  simp only [List.all_eq_true, Bool.and_eq_true, bne_iff_ne] at hkey hvalue
  rw [Bool.not_eq_true'] at hcounts
  refine ⟨?_, ?_, c, ?_, hcounts⟩
  · rwa [String.toList_ofList]
  · rwa [String.toList_ofList]
  · rwa [String.toList_ofList]

/-- The bytes of a written line, from its characters. -/
theorem written_ofList (k v : List Char) : written (String.ofList k) (String.ofList v) =
    (k ++ HeaderLine.separator ++ v ++ ['\n']).flatMap String.utf8EncodeChar := by
  rw [written, encode_ofList k, encode_ofList v]
  simp only [List.flatMap_append]
  rfl

/-- A written line says what was written. -/
theorem IsPlain.isField (h : IsPlain key value) :
    HeaderLine.IsField (written key value) key value := by
  constructor
  · refine ⟨['\n'], ?_, ?_, ?_⟩
    · rw [encode_ofList]
      simp only [List.flatMap_append]
      rfl
    · exact fun c hc => List.mem_singleton.mp hc ▸ rfl
    · obtain ⟨c, hlast, hc⟩ := h.last
      exact ⟨c, by rw [List.getLast?_append, hlast, Option.some_or], hc⟩
  · -- a separator that begins in the key has its colon there
    intro front back hfront
    refine Nat.le_of_not_lt fun hlt => ?_
    have hmem : ':' ∈ key.toList := by
      have hget : (key.toList ++ HeaderLine.separator ++ value.toList)[front.length]? =
          (front ++ HeaderLine.separator ++ back)[front.length]? := by rw [hfront]
      rw [List.append_assoc, List.getElem?_append_left hlt, List.append_assoc,
        List.getElem?_append_right (Nat.le_refl _), Nat.sub_self] at hget
      exact List.mem_of_getElem? hget
    exact (h.of_mem_key _ hmem).1 rfl

/-- A line that ends with the only newline in it is cut off. -/
theorem lines_append {line : List UInt8} (h : newline ∉ line) (rest : List UInt8) :
    lines (line ++ newline :: rest) = (line ++ [newline]) :: lines rest := by
  induction line with
  | nil => exact if_pos rfl
  | cons b line ih =>
    rw [List.mem_cons, not_or] at h
    rw [List.cons_append, lines, if_neg (Ne.symm h.1), ih h.2]
    rfl

/-- Written lines are cut apart again. -/
theorem IsPlain.lines_written (h : IsPlain key value) (rest : List UInt8) :
    lines (written key value ++ rest) = written key value :: lines rest := by
  have hno : newline ∉ encode key ++ encode ": " ++ encode value := by
    intro hmem
    simp only [List.mem_append] at hmem
    rcases hmem with (hkey | hmark) | hvalue
    · exact (h.of_mem_key _ (mem_of_mem_encode hkey (by decide))).2 rfl
    · exact absurd hmark (by decide +kernel)
    · exact h.of_mem_value _ (mem_of_mem_encode hvalue (by decide)) rfl
  rw [written, List.append_assoc, List.singleton_append]
  exact lines_append hno rest

/-- What is written begins with a header section. -/
theorem hasSection_writtenAll (hplain : ∀ field ∈ fields, IsPlain field.1 field.2)
    (hall : d.insertAll fields = .ok d') (rest : List UInt8) :
    HasSection (writtenAll fields rest) (fields.map fun field => written field.1 field.2) fields
      [newline] rest := by
  have hblank : HeaderLine.IsBlank [newline] := fun b hb => Or.inl (List.mem_singleton.mp hb)
  induction fields generalizing d with
  | nil => exact ⟨.nil, hblank, lines rest, if_pos rfl, (flatten_lines rest).symm⟩
  | cons field fields ih =>
    obtain ⟨hfirst, hothers⟩ := List.forall_mem_cons.mp hplain
    unfold insertAll at hall
    split at hall
    · cases hall
    · rename_i d₁ hinsert
      obtain ⟨hgood, _, after, hlines, hrest⟩ := ih hothers hall
      refine ⟨.cons (isHeader_of_insert hfirst.isField hinsert) hgood, hblank, after, ?_, hrest⟩
      rw [writtenAll, hfirst.lines_written, hlines]
      rfl

/-- **What is written is read**, whatever comes behind it. -/
theorem read_writtenAll (hplain : ∀ field ∈ fields, IsPlain field.1 field.2)
    (hall : empty.insertAll fields = .ok d)
    (hversion : lastValue? fields "zsync" ≠ some legacyVersion) (rest : List UInt8) :
    read (writtenAll fields rest) = .ok (d, rest) :=
  (Amounts.whole (hasSection_writtenAll hplain hall rest) hversion hall).read

/-- **A text is read**, if its characters are those of headers and a blank line. -/
theorem read_ofList (rows : List (List Char × List Char)) {text : List Char}
    (hall : empty.insertAll (rows.map fun row => (String.ofList row.1, String.ofList row.2)) =
      .ok d)
    (hplain : ∀ row ∈ rows, isPlain row.1 row.2 = true)
    (hversion : lastValue? (rows.map fun row => (String.ofList row.1, String.ofList row.2)) "zsync" ≠
      some legacyVersion)
    (htext : text =
      rows.flatMap (fun row => row.1 ++ HeaderLine.separator ++ row.2 ++ ['\n']) ++ ['\n']) :
    read (encode (String.ofList text)) = .ok (d, []) := by
  have hwritten : encode (String.ofList text) =
      writtenAll (rows.map fun row => (String.ofList row.1, String.ofList row.2)) [] := by
    rw [encode_ofList, htext, List.flatMap_append]
    clear hall hplain hversion htext
    induction rows with
    | nil => rfl
    | cons row rows ih =>
      rw [List.flatMap_cons, List.flatMap_append, List.append_assoc, ih, List.map_cons, writtenAll,
        written_ofList]
  rw [hwritten]
  refine read_writtenAll (List.forall_mem_map.mpr fun row hrow => ?_) hall hversion []
  exact isPlain_ofList (hplain row hrow)

/-! ### The main result -/

/-- **The reader accepts exactly its grammar, and stops behind the blank line.**

It accepts the bytes if they begin with a header section that does not give the old version, and
leaves what comes after that section, which can be replaced by anything if the blank line has an end,
and is empty if it has none. Otherwise the error is that of the first line that offends, or says that
no line offends and none is blank, or that the headers give the old version. -/
theorem reads_exactly (bytes : List UInt8) :
    ((∃ d rest, read bytes = .ok (d, rest)) ↔ ∃ good fields blank rest,
      HasSection bytes good fields blank rest ∧
        lastValue? fields "zsync" ≠ some legacyVersion) ∧
    (∀ good fields blank rest, HasSection bytes good fields blank rest →
      lastValue? fields "zsync" ≠ some legacyVersion →
        bytes = good.flatten ++ blank ++ rest ∧
        ∃ d, empty.insertAll fields = .ok d ∧ read bytes = .ok (d, rest) ∧
          (blank.getLast? = some newline → ∀ other,
            read (good.flatten ++ blank ++ other) = .ok (d, other)) ∧
          (blank.getLast? ≠ some newline → rest = [])) ∧
    (∀ error, read bytes = .error error ↔
      (∃ good fields bad after, lines bytes = good ++ bad :: after ∧ Headers good fields ∧
        Offends (good.length + 1) bad error) ∨
      (error = .missingTerminator ∧ ∀ raw ∈ lines bytes,
        ¬ HeaderLine.IsBlank raw ∧ ∀ number error, ¬ Offends number raw error) ∨
      (error = .unsupportedVersion legacyVersion ∧ ∃ good fields blank rest,
        HasSection bytes good fields blank rest ∧
          lastValue? fields "zsync" = some legacyVersion)) := by
  refine ⟨⟨?_, ?_⟩, ?_, fun error => ⟨fun h => ?_, ?_⟩⟩
  · -- what is accepted has a section
    rintro ⟨d, rest, h⟩
    cases read_eq_iff.mp h with
    | whole hsection hversion _ => exact ⟨_, _, _, _, hsection, hversion⟩
  · rintro ⟨good, fields, blank, rest, hsection, hversion⟩
    obtain ⟨d, _, hread⟩ := hsection.read
    exact ⟨d, rest, by rw [hread, if_neg hversion]⟩
  · intro good fields blank rest hsection hversion
    obtain ⟨d, hall, hread⟩ := hsection.read
    refine ⟨hsection.eq_append, d, hall, by rw [hread, if_neg hversion], fun hlast other => ?_,
      fun hlast => ?_⟩
    · exact (Amounts.whole (hsection.replace hlast other) hversion hall).read
    · obtain ⟨_, _, after, hlines, rfl⟩ := hsection
      rw [eq_nil_of_lines hlines hlast, List.flatten_nil]
  · -- the error is that of the line at which the reader stops
    cases read_eq_iff.mp h with
    | legacy hsection hversion =>
      exact Or.inr (Or.inr ⟨rfl, _, _, _, _, hsection, hversion⟩)
    | offence hlines hgood hbad => exact Or.inl ⟨_, _, _, _, hlines, hgood, hbad⟩
    | endless hgood => exact Or.inr (Or.inl ⟨rfl, hgood.forall_mem⟩)
  · rintro (⟨good, fields, bad, after, hlines, hgood, hbad⟩ | ⟨rfl, hno⟩ |
      ⟨rfl, good, fields, blank, rest, hsection, hversion⟩)
    · exact (Amounts.offence hlines hgood hbad).read
    · -- without a blank line and without an offence, all lines are headers
      rcases exists_headers (lines bytes) 1 with
        ⟨fields, hall⟩ | ⟨good, fields, raw, after, hlines, _, hstop⟩
      · exact (Amounts.endless hall).read
      · obtain ⟨hblank, hoffends⟩ := hno raw (hlines ▸ List.mem_append_right _ (.head _))
        rcases hstop with hstop | ⟨error, hstop⟩
        · exact absurd hstop hblank
        · exact absurd hstop (hoffends _ _)
    · exact (Amounts.legacy hsection hversion).read

/-- A version and a length with a sign are read, whatever comes behind them. -/
theorem reads_exactly_signed_length :
    (∃ good blank,
      HasSection (writtenAll [("zsync", "0.6.2"), ("Length", "+7")] [0xFF]) good
        [("zsync", "0.6.2"), ("Length", "+7")] blank [0xFF] ∧ blank.getLast? = some newline) ∧
    lastValue? [("zsync", "0.6.2"), ("Length", "+7")] "zsync" ≠ some legacyVersion ∧
    ∃ d, d.length = .ok 7 ∧ ∀ other,
      read (written "zsync" "0.6.2" ++ (written "Length" "+7" ++ newline :: other)) =
        .ok (d, other) := by
  have hplain : ∀ field ∈ [("zsync", "0.6.2"), ("Length", "+7")], IsPlain field.1 field.2 :=
    List.forall_mem_cons.mpr ⟨isPlain_ofList (by decide), List.forall_mem_singleton.mpr
      (isPlain_ofList (by decide))⟩
  have hall : empty.insertAll [("zsync", "0.6.2"), ("Length", "+7")] =
      .ok ⟨[("Length", .integer 7), ("zsync", .text "0.6.2")], []⟩ := rfl
  have hsection := hasSection_writtenAll hplain hall [0xFF]
  have hversion : lastValue? [("zsync", "0.6.2"), ("Length", "+7")] "zsync" ≠
      some legacyVersion := by decide
  obtain ⟨_, d, hd, _, hother, _⟩ := (reads_exactly _).2.1 _ _ _ _ hsection hversion
  cases hall.symm.trans hd
  simp only [List.map_cons, List.map_nil, List.flatten_cons, List.flatten_nil, List.append_nil,
    List.append_assoc, List.singleton_append] at hother
  exact ⟨⟨_, _, hsection, rfl⟩, hversion, _, rfl, hother rfl⟩

/-- **A blank line without an end grows** when something is put behind it: it is the last line, and
nothing comes after it, but it is no blank line any more. -/
theorem unterminated_blank_line_grows :
    HasSection [32] [] [] [32] [] ∧ read [32] = .ok (empty, []) ∧
      read ([32] ++ [120]) = .error (.malformedLine 1 " x") := by
  refine ⟨⟨.nil, ?_, [], rfl, rfl⟩, by decide +kernel, by decide +kernel⟩
  exact fun b hb => Or.inr (Or.inr (List.mem_singleton.mp hb))

end Descriptor

end RangeSync
