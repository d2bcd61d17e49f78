import RangeSync.Text.Utf8

/-!
# Reading text is the inverse of writing it

Bytes are read as text by cutting them into pieces, with a table of what may follow what. That the
table is the right one cannot be seen by looking at it: it has to leave out the overlong forms, the
surrogates and what is beyond the last code point, and nothing else. What makes it right is that
**bytes are read as a text exactly if they are the bytes of that text**
(`RangeSync.Text.decode?_eq_some_iff`), where the bytes of a text are those of the library.

Between the two stands `RangeSync.Text.Spells`, a well-formed sequence and the character that it
stands for, with one case for each length. A piece is found exactly where there is a sequence, a
sequence is what its character is written as, and every character has one.

The order of texts does not depend on how they are written either: **texts are in the order of their
bytes** (`RangeSync.Text.encode_lt_encode`), since sequences are in the order of their characters.
-/

namespace RangeSync.Text

variable {c c' : Char} {first first' : UInt8} {tail tail' rest bytes : List UInt8} {s t : String}
  {n v : Nat}

/-! ### Sequences -/

/-- **A well-formed sequence** of bytes, and the character that it stands for. -/
inductive Spells : UInt8 → List UInt8 → Char → Prop
  | one {a : UInt8} : a < 0x80 → Spells a [] (Char.ofNat a.toNat)
  | two {a b : UInt8} : 0xC2 ≤ a → a ≤ 0xDF → isContinuation b = true →
      Spells a [b] (Char.ofNat (a.toNat % 32 * 64 + payload b))
  | three {a b c : UInt8} : 0xE0 ≤ a → a ≤ 0xEF → followsThree a b = true →
      isContinuation c = true →
      Spells a [b, c] (Char.ofNat ((a.toNat % 16 * 64 + payload b) * 64 + payload c))
  | four {a b c d : UInt8} : 0xF0 ≤ a → a ≤ 0xF4 → followsFour a b = true →
      isContinuation c = true → isContinuation d = true →
      Spells a [b, c, d]
        (Char.ofNat (((a.toNat % 8 * 64 + payload b) * 64 + payload c) * 64 + payload d))

/-- A sequence is found at the beginning of the bytes. -/
theorem Spells.headPiece_append (h : Spells first tail c) (rest : List UInt8) :
    headPiece first (tail ++ rest) = (some c, tail.length) := by
  unfold headPiece
  cases h with
  | one ha => rw [if_pos ha]; rfl
  | two ha ha' hb =>
    rw [if_neg (by grind), if_pos (by grind)]
    simp only [List.cons_append, List.nil_append, hb, if_true]
    rfl
  | three ha ha' hb hc =>
    rw [if_neg (by grind), if_neg (by grind), if_pos (by grind)]
    simp only [List.cons_append, List.nil_append, hb, hc, if_true]
    rfl
  | four ha ha' hb hc hd =>
    rw [if_neg (by grind), if_neg (by grind), if_neg (by grind), if_pos (by grind)]
    simp only [List.cons_append, List.nil_append, hb, hc, hd, if_true]
    rfl

/-- What is found at the beginning of the bytes is a sequence. -/
theorem spells_of_headPiece (h : headPiece first rest = (some c, n)) :
    ∃ tail, Spells first tail c ∧ rest = tail ++ rest.drop n := by
  unfold headPiece at h
  split at h
  · rename_i ha
    cases h
    exact ⟨[], .one ha, rfl⟩
  split at h
  · rename_i ha
    rw [Bool.and_eq_true, decide_eq_true_iff, decide_eq_true_iff] at ha
    split at h
    · split at h
      · rename_i hb
        cases h
        exact ⟨[_], .two ha.1 ha.2 hb, rfl⟩
      · cases h
    · cases h
  split at h
  · rename_i ha
    rw [Bool.and_eq_true, decide_eq_true_iff, decide_eq_true_iff] at ha
    split at h
    · split at h
      · rename_i hb
        split at h
        · split at h
          · rename_i hc
            cases h
            exact ⟨[_, _], .three ha.1 ha.2 hb hc, rfl⟩
          · cases h
        · cases h
      · cases h
    · cases h
  split at h
  · rename_i ha
    rw [Bool.and_eq_true, decide_eq_true_iff, decide_eq_true_iff] at ha
    split at h
    · split at h
      · rename_i hb
        split at h
        · split at h
          · rename_i hc
            split at h
            · split at h
              · rename_i hd
                cases h
                exact ⟨[_, _, _], .four ha.1 ha.2 hb hc hd, rfl⟩
              · cases h
            · cases h
          · cases h
        · cases h
      · cases h
    · cases h
  · cases h

/-! ### Values -/

/-- The value of a character: not that of a surrogate, and within the range of Unicode. -/
def IsScalar (v : Nat) : Prop :=
  v < 0xD800 ∨ (0xDFFF < v ∧ v < 0x110000)

theorem toNat_ofNat (h : IsScalar v) : (Char.ofNat v).toNat = v := by
  rw [Char.ofNat, dif_pos (show v.isValidChar from h)]
  rfl

theorem isContinuation_iff {b : UInt8} :
    isContinuation b = true ↔ 0x80 ≤ b.toNat ∧ b.toNat ≤ 0xBF := by
  rw [isContinuation, Bool.and_eq_true, decide_eq_true_iff, decide_eq_true_iff]
  exact Iff.rfl

theorem followsThree_iff {a b : UInt8} : followsThree a b = true ↔
    0x80 ≤ b.toNat ∧ b.toNat ≤ 0xBF ∧ (a.toNat = 0xE0 → 0xA0 ≤ b.toNat) ∧
      (a.toNat = 0xED → b.toNat ≤ 0x9F) := by
  have h (d : UInt8) : a = d ↔ a.toNat = d.toNat := UInt8.toNat_inj.symm
  unfold followsThree
  simp only [beq_iff_eq, h, UInt8.le_iff_toNat_le, UInt8.reduceToNat]
  split
  · simp only [Bool.and_eq_true, decide_eq_true_eq]
    omega
  · split
    · simp only [Bool.and_eq_true, decide_eq_true_eq]
      omega
    · rw [isContinuation_iff]
      omega

theorem followsFour_iff {a b : UInt8} : followsFour a b = true ↔
    0x80 ≤ b.toNat ∧ b.toNat ≤ 0xBF ∧ (a.toNat = 0xF0 → 0x90 ≤ b.toNat) ∧
      (a.toNat = 0xF4 → b.toNat ≤ 0x8F) := by
  have h (d : UInt8) : a = d ↔ a.toNat = d.toNat := UInt8.toNat_inj.symm
  unfold followsFour
  simp only [beq_iff_eq, h, UInt8.le_iff_toNat_le, UInt8.reduceToNat]
  split
  · simp only [Bool.and_eq_true, decide_eq_true_eq]
    omega
  · split
    · simp only [Bool.and_eq_true, decide_eq_true_eq]
      omega
    · rw [isContinuation_iff]
      omega

/-- A byte with the value of another one. -/
theorem byte_eq (h : n = first.toNat) : UInt8.ofNat n = first := by
  rw [h, UInt8.ofNat_toNat]

/-! ### Sequences and characters -/

/-- **A sequence is what its character is written as.** -/
theorem Spells.encode (h : Spells first tail c) : String.utf8EncodeChar c = first :: tail := by
  have hchar {v : Nat} (hv : IsScalar v) : (Char.ofNat v).val.toNat = v := toNat_ofNat hv
  unfold String.utf8EncodeChar
  cases h with
  | one ha =>
    change first.toNat < 128 at ha
    rw [hchar (Or.inl (by omega))]
    dsimp only
    rw [if_pos (by omega), UInt8.ofNat_toNat]
  | @two b ha ha' hb =>
    change 194 ≤ first.toNat at ha
    change first.toNat ≤ 223 at ha'
    rw [isContinuation_iff] at hb
    unfold payload
    rw [hchar (Or.inl (by omega))]
    dsimp only
    rw [if_neg (by omega), if_pos (by omega), @byte_eq first _ (by omega),
      @byte_eq b _ (by omega)]
  | @three b d ha ha' hb hc =>
    change 224 ≤ first.toNat at ha
    change first.toNat ≤ 239 at ha'
    rw [isContinuation_iff] at hc
    rw [followsThree_iff] at hb
    unfold payload
    rw [hchar (by unfold IsScalar; omega)]
    dsimp only
    rw [if_neg (by omega), if_neg (by omega), if_pos (by omega), @byte_eq first _ (by omega),
      @byte_eq b _ (by omega), @byte_eq d _ (by omega)]
  | @four b d e ha ha' hb hc hd =>
    change 240 ≤ first.toNat at ha
    change first.toNat ≤ 244 at ha'
    rw [isContinuation_iff] at hc hd
    rw [followsFour_iff] at hb
    unfold payload
    rw [hchar (by unfold IsScalar; omega)]
    dsimp only
    rw [if_neg (by omega), if_neg (by omega), if_neg (by omega), @byte_eq first _ (by omega),
      @byte_eq b _ (by omega), @byte_eq d _ (by omega), @byte_eq e _ (by omega)]

/-- **Every character has its sequence.** -/
theorem exists_spells (c : Char) : ∃ first tail, Spells first tail c := by
  have hvalid : IsScalar c.toNat := c.valid
  unfold IsScalar at hvalid
  have hbyte {n : Nat} (h : n < 256) : (UInt8.ofNat n).toNat = n := UInt8.toNat_ofNat_of_lt' h
  have hbetween {n low high : Nat} (h : n < 256) (hlow : low ≤ n) (hhigh : n ≤ high)
      (hh : high < 256) : UInt8.ofNat low ≤ UInt8.ofNat n ∧ UInt8.ofNat n ≤ UInt8.ofNat high := by
    rw [UInt8.le_iff_toNat_le, UInt8.le_iff_toNat_le, hbyte h, hbyte hh, hbyte (by omega)]
    exact ⟨hlow, hhigh⟩
  have hchar {v : Nat} (h : v = c.toNat) : Char.ofNat v = c := by rw [h, Char.ofNat_toNat]
  have hcont (n : Nat) : (UInt8.ofNat (n % 64 + 128)).toNat = n % 64 + 128 := hbyte (by omega)
  have hiscont (n : Nat) : isContinuation (UInt8.ofNat (n % 64 + 128)) = true := by
    rw [isContinuation_iff, hcont]
    omega
  by_cases h₁ : c.toNat < 128
  · have hfirst := hbyte (show c.toNat < 256 by omega)
    have hsmall : UInt8.ofNat c.toNat < 0x80 := by
      rw [UInt8.lt_iff_toNat_lt, hfirst]
      exact h₁
    have hc := Spells.one hsmall
    rw [hfirst, Char.ofNat_toNat] at hc
    exact ⟨_, _, hc⟩
  by_cases h₂ : c.toNat < 2048
  · have hfirst := @hbyte (c.toNat / 64 + 192) (by omega)
    have ha := @hbetween (c.toNat / 64 + 192) 194 223 (by omega) (by omega) (by omega) (by omega)
    have hc := Spells.two ha.1 ha.2 (hiscont c.toNat)
    rw [hchar (by rw [payload, hfirst, hcont]; omega)] at hc
    exact ⟨_, _, hc⟩
  by_cases h₃ : c.toNat < 65536
  · have hfirst := @hbyte (c.toNat / 4096 + 224) (by omega)
    have ha := @hbetween (c.toNat / 4096 + 224) 224 239 (by omega) (by omega) (by omega) (by omega)
    have hfollows : followsThree (UInt8.ofNat (c.toNat / 4096 + 224))
        (UInt8.ofNat (c.toNat / 64 % 64 + 128)) = true := by
      rw [followsThree_iff, hfirst, hcont]
      omega
    have hc := Spells.three ha.1 ha.2 hfollows (hiscont c.toNat)
    rw [hchar (by rw [payload, payload, hfirst, hcont, hcont]; omega)] at hc
    exact ⟨_, _, hc⟩
  · have hfirst := @hbyte (c.toNat / 262144 + 240) (by omega)
    have ha := @hbetween (c.toNat / 262144 + 240) 240 244 (by omega) (by omega) (by omega)
      (by omega)
    have hfollows : followsFour (UInt8.ofNat (c.toNat / 262144 + 240))
        (UInt8.ofNat (c.toNat / 4096 % 64 + 128)) = true := by
      rw [followsFour_iff, hfirst, hcont]
      omega
    have hc := Spells.four ha.1 ha.2 hfollows (hiscont (c.toNat / 64)) (hiscont c.toNat)
    rw [hchar (by rw [payload, payload, payload, hfirst, hcont, hcont, hcont]; omega)] at hc
    exact ⟨_, _, hc⟩

/-- **A character of ASCII is a byte of its own**: in the sequences of other characters there is no
such byte. -/
theorem Spells.of_mem_of_lt {b : UInt8} (h : Spells first tail c) (hmem : b ∈ first :: tail)
    (hascii : b < 0x80) : c = Char.ofNat b.toNat := by
  have hno (hall : ∀ a ∈ first :: tail, 0x80 ≤ a.toNat) : False :=
    UInt8.not_lt.mpr (hall b hmem) hascii
  have hhigh {n : Nat} (hn : 0x80 ≤ n) (hfirst : n ≤ first.toNat) : 0x80 ≤ first.toNat :=
    Nat.le_trans hn hfirst
  cases h with
  | one _ =>
    cases List.mem_singleton.mp hmem
    rfl
  | two ha _ hb =>
    refine (hno ?_).elim
    simp only [List.forall_mem_cons]
    exact ⟨hhigh (by decide) (UInt8.le_iff_toNat_le.mp ha), (isContinuation_iff.mp hb).1,
      List.forall_mem_nil _⟩
  | three ha _ hb hc =>
    refine (hno ?_).elim
    simp only [List.forall_mem_cons]
    exact ⟨hhigh (by decide) (UInt8.le_iff_toNat_le.mp ha), (followsThree_iff.mp hb).1,
      (isContinuation_iff.mp hc).1, List.forall_mem_nil _⟩
  | four ha _ hb hc hd =>
    refine (hno ?_).elim
    simp only [List.forall_mem_cons]
    exact ⟨hhigh (by decide) (UInt8.le_iff_toNat_le.mp ha), (followsFour_iff.mp hb).1,
      (isContinuation_iff.mp hc).1, (isContinuation_iff.mp hd).1, List.forall_mem_nil _⟩

/-! ### Texts -/

/-- The bytes of a text that is given by its characters. -/
theorem encode_ofList (cs : List Char) :
    encode (String.ofList cs) = cs.flatMap String.utf8EncodeChar := by
  rw [encode, String.toList_ofList]

/-- A byte of ASCII is there only if its character is. -/
theorem mem_of_mem_encode {b : UInt8} (h : b ∈ encode s) (hb : b < 0x80) :
    Char.ofNat b.toNat ∈ s.toList := by
  obtain ⟨c, hc, hmem⟩ := List.mem_flatMap.mp h
  obtain ⟨first, tail, hspells⟩ := exists_spells c
  rw [hspells.encode] at hmem
  rwa [← hspells.of_mem_of_lt hmem hb]

/-- A sequence in front of other bytes is a piece. -/
theorem pieces_append (h : Spells first tail c) (rest : List UInt8) :
    pieces (first :: tail ++ rest) = some c :: pieces rest := by
  rw [List.cons_append, pieces, h.headPiece_append rest]
  dsimp only
  rw [List.drop_left]

/-- The sequence of a character in front of other bytes. -/
theorem pieces_encodeChar_append (c : Char) (rest : List UInt8) :
    pieces (String.utf8EncodeChar c ++ rest) = some c :: pieces rest := by
  obtain ⟨first, tail, h⟩ := exists_spells c
  rw [h.encode]
  exact pieces_append h rest

/-- The pieces of a text are its characters. -/
theorem pieces_encode (s : String) : pieces (encode s) = s.toList.map some := by
  unfold encode
  induction s.toList with
  | nil => rw [List.flatMap_nil, pieces]; rfl
  | cons c rest ih => rw [List.flatMap_cons, pieces_encodeChar_append, ih, List.map_cons]

/-- **A text is read back** from its bytes. -/
theorem decode?_encode (s : String) : decode? (encode s) = some s := by
  have hmap (cs : List Char) : (cs.map some).mapM id = some cs := by
    induction cs with
    | nil => rfl
    | cons c rest ih => rw [List.map_cons, List.mapM_cons, ih]; rfl
  rw [decode?, pieces_encode, hmap, Option.map_some, String.ofList_toList]

/-- There is nothing to be lenient about in the bytes of a text. -/
theorem decodeLossy_encode (s : String) : decodeLossy (encode s) = s := by
  rw [decodeLossy, pieces_encode, List.map_map]
  exact (congrArg String.ofList (List.map_id _)).trans String.ofList_toList

/-- **What bytes are read as has these bytes.** -/
theorem encode_of_decode? (h : decode? bytes = some s) : encode s = bytes := by
  rw [decode?, Option.map_eq_some_iff] at h
  obtain ⟨cs, hcs, rfl⟩ := h
  rw [encode, String.toList_ofList]
  induction bytes using pieces.induct generalizing cs with
  | case1 =>
    rw [pieces] at hcs
    cases hcs
    rfl
  | case2 b rest head ih =>
    rw [pieces, List.mapM_cons] at hcs
    simp only [Option.bind_eq_bind, Option.bind_eq_some_iff, Option.pure_def, id] at hcs
    obtain ⟨c, hc, more, hmore, hcs⟩ := hcs
    cases hcs
    obtain ⟨tail, hspells, hrest⟩ := @spells_of_headPiece c b rest head.2 (Prod.ext hc rfl)
    rw [List.flatMap_cons, ih more hmore, hspells.encode, List.cons_append, ← hrest]

/-- **Bytes are a text exactly if they are the bytes of that text.** -/
theorem decode?_eq_some_iff : decode? bytes = some s ↔ encode s = bytes := by
  constructor
  · exact encode_of_decode?
  · rintro rfl
    exact decode?_encode s

/-! ### Order -/

/-- The value of a character, from the bytes of its sequence. -/
theorem Spells.toNat_eq (h : Spells first tail c) :
    (tail = [] ∧ first.toNat < 0x80 ∧ c.toNat = first.toNat) ∨
    (∃ b, tail = [b] ∧ 0xC2 ≤ first.toNat ∧ first.toNat ≤ 0xDF ∧ 0x80 ≤ b.toNat ∧
      b.toNat ≤ 0xBF ∧ c.toNat = (first.toNat - 0xC0) * 64 + (b.toNat - 0x80)) ∨
    (∃ b d, tail = [b, d] ∧ 0xE0 ≤ first.toNat ∧ first.toNat ≤ 0xEF ∧ 0x80 ≤ b.toNat ∧
      b.toNat ≤ 0xBF ∧ 0x80 ≤ d.toNat ∧ d.toNat ≤ 0xBF ∧ 0x800 ≤ c.toNat ∧
      c.toNat = ((first.toNat - 0xE0) * 64 + (b.toNat - 0x80)) * 64 + (d.toNat - 0x80)) ∨
    ∃ b d e, tail = [b, d, e] ∧ 0xF0 ≤ first.toNat ∧ 0x80 ≤ b.toNat ∧ b.toNat ≤ 0xBF ∧
      0x80 ≤ d.toNat ∧ d.toNat ≤ 0xBF ∧ 0x80 ≤ e.toNat ∧ e.toNat ≤ 0xBF ∧ 0x10000 ≤ c.toNat ∧
      c.toNat = (((first.toNat - 0xF0) * 64 + (b.toNat - 0x80)) * 64 + (d.toNat - 0x80)) * 64 +
        (e.toNat - 0x80) := by
  cases h with
  | one ha =>
    change first.toNat < 128 at ha
    exact Or.inl ⟨rfl, ha, toNat_ofNat (Or.inl (by omega))⟩
  | @two b ha ha' hb =>
    change 194 ≤ first.toNat at ha
    change first.toNat ≤ 223 at ha'
    rw [isContinuation_iff] at hb
    unfold payload
    rw [toNat_ofNat (Or.inl (by omega))]
    exact Or.inr (Or.inl ⟨b, rfl, ha, ha', hb.1, hb.2, by omega⟩)
  | @three b d ha ha' hb hc =>
    change 224 ≤ first.toNat at ha
    change first.toNat ≤ 239 at ha'
    rw [isContinuation_iff] at hc
    rw [followsThree_iff] at hb
    unfold payload
    rw [toNat_ofNat (by unfold IsScalar; omega)]
    exact Or.inr (Or.inr (Or.inl ⟨b, d, rfl, ha, ha', hb.1, hb.2.1, hc.1, hc.2, by omega, by omega⟩))
  | @four b d e ha ha' hb hc hd =>
    change 240 ≤ first.toNat at ha
    change first.toNat ≤ 244 at ha'
    rw [isContinuation_iff] at hc hd
    rw [followsFour_iff] at hb
    unfold payload
    rw [toNat_ofNat (by unfold IsScalar; omega)]
    exact Or.inr (Or.inr (Or.inr
      ⟨b, d, e, rfl, ha, hb.1, hb.2.1, hc.1, hc.2, hd.1, hd.2, by omega, by omega⟩))

/-- **Sequences are in the order of their characters**, whatever comes behind them. -/
theorem Spells.append_lt_append (h : Spells first tail c) (h' : Spells first' tail' c')
    (hlt : c < c') (rest rest' : List UInt8) :
    first :: tail ++ rest < first' :: tail' ++ rest' := by
  change c.toNat < c'.toNat at hlt
  have hcons (a b : UInt8) (l l' : List UInt8) : a :: l < b :: l' ↔
      a.toNat < b.toNat ∨ a.toNat = b.toNat ∧ l < l' := by
    rw [List.cons_lt_cons_iff, UInt8.lt_iff_toNat_lt, UInt8.toNat_inj]
  rcases h.toNat_eq with ⟨rfl, h⟩ | ⟨_, rfl, h⟩ | ⟨_, _, rfl, h⟩ | ⟨_, _, _, rfl, h⟩ <;>
    rcases h'.toNat_eq with ⟨rfl, h'⟩ | ⟨_, rfl, h'⟩ | ⟨_, _, rfl, h'⟩ | ⟨_, _, _, rfl, h'⟩ <;>
    simp only [List.cons_append, List.nil_append, hcons] <;> omega

/-- **Texts are in the order of their bytes.** -/
theorem encode_lt_encode (h : s < t) : encode s < encode t := by
  change s.toList < t.toList at h
  unfold encode
  generalize s.toList = cs at h
  generalize t.toList = ds at h
  induction h with
  | @nil d ds =>
    obtain ⟨first, tail, hd⟩ := exists_spells d
    rw [List.flatMap_cons, hd.encode]
    exact .nil
  | @rel c cs d ds hlt =>
    obtain ⟨first, tail, hc⟩ := exists_spells c
    obtain ⟨first', tail', hd⟩ := exists_spells d
    rw [List.flatMap_cons, List.flatMap_cons, hc.encode, hd.encode]
    exact hc.append_lt_append hd hlt _ _
  | @cons c cs ds _ ih =>
    rw [List.flatMap_cons, List.flatMap_cons]
    exact List.append_left_lt ih

end RangeSync.Text
