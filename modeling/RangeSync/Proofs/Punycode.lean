import RangeSync.Idna.Punycode

/-!
# Labels come back from their ASCII form

The writer of a label never looks at what it has written, and the reader never looks back at what
it has read, so the two can be run side by side: **the reader goes through the very insertions that
the writer had in mind** (`RangeSync.Idna.Punycode.Follows`). While the writer passes the label for
the characters of number `n`, the reader holds the characters up to `n` of what has been passed and
the characters below `n` of what has not. The steps that the writer counts are those that the
reader would have to take from where it stands to the place that the writer has reached.

What comes of it is that a label that has an ASCII form is read back from it
(`RangeSync.Idna.Punycode.decode?_of_encode?`).
-/

namespace RangeSync.Idna.Punycode

open Text

/-! ### Digits -/

section Digits

variable {bias position weight total n : Nat} {c : Char} {s rest : List Char}

/-- The character is one of the digits that are written. -/
def IsDigit (c : Char) : Prop :=
  ∃ v < 36, c = digit v

theorem value?_digit : ∀ v < 36, value? (digit v) = some v := by
  decide

theorem IsDigit.ne_hyphen (h : IsDigit c) : c ≠ '-' := by
  obtain ⟨v, hv, rfl⟩ := h
  have hall : ∀ v < 36, digit v ≠ '-' := by decide
  exact hall v hv

theorem digits_of_lt (h : n < threshold bias position) :
    digits bias position n = [digit n] := by
  rw [digits, if_pos h]

theorem digits_of_le (h : threshold bias position ≤ n) :
    digits bias position n =
      digit (threshold bias position +
          (n - threshold bias position) % (36 - threshold bias position)) ::
        digits bias (position + 36)
          ((n - threshold bias position) / (36 - threshold bias position)) := by
  rw [digits, if_neg (Nat.not_lt.mpr h)]

theorem digits_ne_nil : digits bias position n ≠ [] := by
  rcases Nat.lt_or_ge n (threshold bias position) with h | h
  · simp [digits_of_lt h]
  · simp [digits_of_le h]

/-- The steps that are left behind a digit are fewer. -/
theorem rest_lt (h : threshold bias position ≤ n) :
    (n - threshold bias position) / (36 - threshold bias position) < n := by
  have hpos := threshold_pos bias position
  exact Nat.lt_of_le_of_lt (Nat.div_le_self _ _) (by omega)

/-- The digit at a position that is not the last one. -/
theorem inner_lt : threshold bias position +
    (n - threshold bias position) % (36 - threshold bias position) < 36 := by
  have hlt := threshold_lt bias position
  have hmod := Nat.mod_lt (n - threshold bias position)
    (show 0 < 36 - threshold bias position by omega)
  omega

theorem isDigit_of_mem_digits (h : c ∈ digits bias position n) : IsDigit c := by
  induction n using Nat.strongRecOn generalizing position with
  | _ n ih =>
    rcases Nat.lt_or_ge n (threshold bias position) with hn | hn
    · rw [digits_of_lt hn, List.mem_singleton] at h
      exact ⟨n, Nat.lt_trans hn (threshold_lt bias position), h⟩
    · rw [digits_of_le hn, List.mem_cons] at h
      rcases h with rfl | h
      · exact ⟨_, inner_lt, rfl⟩
      · exact ih _ (rest_lt hn) h

theorem number?_cons {v : Nat} (hv : v < 36) (h : total + v * weight < UInt32.size) :
    number? bias position weight total (digit v :: rest) =
      if v < threshold bias position then some (total + v * weight, rest)
      else number? bias (position + 36) (weight * (36 - threshold bias position))
        (total + v * weight) rest := by
  simp only [number?, value?_digit v hv, if_neg (Nat.not_le.mpr h)]

/-- What the first digit leaves is divided by as much as its weight grows. -/
theorem digit_weight {t k : Nat} (h : t ≤ n) :
    (t + (n - t) % k) * weight + (n - t) / k * (weight * k) = n * weight := by
  have hsplit : t + (n - t) % k + (n - t) / k * k = n := by
    have hmod := Nat.mod_add_div' (n - t) k
    omega
  calc (t + (n - t) % k) * weight + (n - t) / k * (weight * k)
      = (t + (n - t) % k + (n - t) / k * k) * weight := by
        rw [Nat.add_mul (t + _), Nat.mul_assoc, Nat.mul_comm weight k]
    _ = n * weight := by rw [hsplit]

/-- **A number is read from its digits**, whatever follows them. -/
theorem number?_digits (h : total + n * weight < UInt32.size) :
    number? bias position weight total (digits bias position n ++ rest) =
      some (total + n * weight, rest) := by
  induction n using Nat.strongRecOn generalizing position weight total with
  | _ n ih =>
    rcases Nat.lt_or_ge n (threshold bias position) with hn | hn
    · rw [digits_of_lt hn, List.singleton_append,
        number?_cons (Nat.lt_trans hn (threshold_lt bias position)) h, if_pos hn]
    · have hinner := @inner_lt bias position n
      have hweight := @digit_weight weight n _ (36 - threshold bias position) hn
      rw [digits_of_le hn, List.cons_append, number?_cons hinner (by omega),
        if_neg (Nat.not_lt.mpr (Nat.le_add_right _ _)),
        ih _ (rest_lt hn) (by rw [Nat.add_assoc, hweight]; exact h), Nat.add_assoc, hweight]

end Digits

/-! ### The reader beside the writer -/

/-- What is known while the insertions of a label are read. -/
structure Reader where
  label : List Char
  n : Nat
  place : Nat
  bias : Nat

/-- What comes of the rest of the digits. -/
def Reader.run? (r : Reader) (fuel : Nat) (s : List Char) : Option (List Char) :=
  insertions? r.label r.n r.place r.bias fuel s

/-- The digits lead the reader from one state to another. -/
def Leads (r : Reader) (written : List Char) (r' : Reader) : Prop :=
  ∃ k ≤ written.length, ∀ fuel rest, r.run? (k + fuel) (written ++ rest) = r'.run? fuel rest

/-- What the writer writes on its way leads the reader along. -/
def Echoes (w : Writer) (r : Reader) (w' : Writer) (r' : Reader) : Prop :=
  ∃ written, w'.output = w.output ++ written ∧ (∀ c ∈ written, IsDigit c) ∧ Leads r written r'

/-- The reader has followed a writer that inserts the characters of number `n` and that has passed
the characters `before` of the label, but not yet the characters `after`. -/
structure Follows (basic n : Nat) (before after : List Char) (w : Writer) (r : Reader) :
    Prop where
  label : r.label = before.filter (·.toNat ≤ n) ++ after.filter (·.toNat < n)
  done : r.label.length = w.done
  bias : r.bias = w.bias
  basic_le : basic ≤ w.done
  isFirst : (r.place == 0) = (w.done == basic)
  le : r.n ≤ n
  /-- From where the reader is, the steps lead to the place that the writer has reached. -/
  steps : r.place + w.delta =
    (n - r.n) * (w.done + 1) + (before.filter (·.toNat ≤ n)).length

section Reader

variable {basic n next : Nat} {c : Char} {before after label : List Char}
  {w w' w'' : Writer} {r r' r'' : Reader}

theorem Leads.refl (r : Reader) : Leads r [] r :=
  ⟨0, Nat.le_refl 0, fun fuel rest => by rw [Nat.zero_add, List.nil_append]⟩

theorem Leads.trans {written written' : List Char} (h : Leads r written r')
    (h' : Leads r' written' r'') : Leads r (written ++ written') r'' := by
  obtain ⟨k, hk, hrun⟩ := h
  obtain ⟨k', hk', hrun'⟩ := h'
  refine ⟨k + k', by rw [List.length_append]; omega, fun fuel rest => ?_⟩
  rw [Nat.add_assoc, List.append_assoc, hrun, hrun']

theorem Echoes.refl (h : w'.output = w.output) : Echoes w r w' r :=
  ⟨[], h.trans (List.append_nil _).symm, fun _ hc => absurd hc List.not_mem_nil, .refl r⟩

theorem Echoes.trans (h : Echoes w r w' r') (h' : Echoes w' r' w'' r'') : Echoes w r w'' r'' := by
  obtain ⟨written, hout, hdigits, hleads⟩ := h
  obtain ⟨written', hout', hdigits', hleads'⟩ := h'
  refine ⟨written ++ written', by rw [hout', hout, List.append_assoc], ?_, hleads.trans hleads'⟩
  intro c hc
  exact (List.mem_append.mp hc).elim (hdigits c) (hdigits' c)

theorem isScalar_toNat (c : Char) : isScalar c.toNat = true := by
  have h := c.valid
  simp only [UInt32.isValidChar, Nat.isValidChar] at h
  simp only [isScalar, Bool.or_eq_true, Bool.and_eq_true, decide_eq_true_eq, Char.toNat]
  omega

theorem insertAt_length (a : Char) (before after : List Char) :
    insertAt a before.length (before ++ after) = before ++ a :: after := by
  induction before with
  | nil => rfl
  | cons b before ih => rw [List.length_cons, List.cons_append, insertAt, ih, List.cons_append]

/-- One insertion, once its number of steps is read. -/
theorem run?_of_number? {s rest : List Char} {delta fuel : Nat} (hne : s ≠ [])
    (h : number? r.bias 36 1 0 s = some (delta, rest)) :
    r.run? (fuel + 1) s =
      if isScalar (r.n + (r.place + delta) / (r.label.length + 1)) then
        insertions?
          (insertAt (Char.ofNat (r.n + (r.place + delta) / (r.label.length + 1)))
            ((r.place + delta) % (r.label.length + 1)) r.label)
          (r.n + (r.place + delta) / (r.label.length + 1))
          ((r.place + delta) % (r.label.length + 1) + 1)
          (adapted delta (r.label.length + 1) (r.place == 0)) fuel rest
      else none := by
  rw [Reader.run?, insertions?]
  · rw [h]
  · exact hne

/-- **The reader makes the insertion that the steps count to.** -/
theorem leads_insertion (hlabel : r.label = before ++ after) (hle : r.n ≤ c.toNat) {delta : Nat}
    (hsteps : r.place + delta = (c.toNat - r.n) * (r.label.length + 1) + before.length)
    (hdelta : delta < UInt32.size) :
    Leads r (digits r.bias 36 delta)
      { label := before ++ c :: after
        n := c.toNat
        place := before.length + 1
        bias := adapted delta (r.label.length + 1) (r.place == 0) } := by
  have hne : digits r.bias 36 delta ≠ [] := digits_ne_nil
  refine ⟨1, List.length_pos_iff.mpr hne, fun fuel rest => ?_⟩
  have hread := @number?_digits r.bias 36 1 0 delta rest (by omega)
  rw [Nat.zero_add, Nat.mul_one] at hread
  have hlt : before.length < r.label.length + 1 := by
    rw [hlabel, List.length_append]
    omega
  have hdiv : (r.place + delta) / (r.label.length + 1) = c.toNat - r.n := by
    rw [hsteps, Nat.mul_comm, Nat.mul_add_div (Nat.succ_pos _), Nat.div_eq_of_lt hlt, Nat.add_zero]
  have hmod : (r.place + delta) % (r.label.length + 1) = before.length := by
    rw [hsteps, Nat.mul_comm, Nat.mul_add_mod, Nat.mod_eq_of_lt hlt]
  rw [Nat.add_comm, run?_of_number? (by simp [hne]) hread, hdiv, hmod, Nat.add_sub_cancel' hle,
    if_pos (isScalar_toNat c), Char.ofNat_toNat, Reader.run?]
  rw [hlabel, insertAt_length]

/-- What the writer knows behind an insertion. -/
def inserted (basic : Nat) (w : Writer) : Writer :=
  { done := w.done + 1
    delta := 0
    bias := adapted w.delta (w.done + 1) (w.done == basic)
    output := w.output ++ digits w.bias 36 w.delta }

/-- The character that is passed is inserted. -/
theorem Follows.insert (h : Follows basic c.toNat before (c :: after) w r)
    (hfits : w.delta < UInt32.size) :
    ∃ r', Echoes w r (inserted basic w) r' ∧
      Follows basic c.toNat (before ++ [c]) after (inserted basic w) r' := by
  have hlabel : r.label = before.filter (·.toNat ≤ c.toNat) ++
      after.filter (·.toNat < c.toNat) := by simpa using h.label
  have hlength : (before.filter (·.toNat ≤ c.toNat)).length +
      (after.filter (·.toNat < c.toNat)).length = w.done := by
    rw [← h.done, hlabel, List.length_append]
  have hleads := leads_insertion hlabel h.le (h.done ▸ h.steps) hfits
  rw [h.done, h.isFirst, h.bias] at hleads
  refine ⟨_, ⟨_, rfl, fun _ => isDigit_of_mem_digits, hleads⟩, ?_⟩
  exact {
    label := by simp
    done := by
      simp only [List.length_append, List.length_cons, inserted]
      omega
    bias := rfl
    basic_le := Nat.le_succ_of_le h.basic_le
    isFirst := by
      -- The first insertion is over, so neither of the two is at its beginning.
      have hne : w.done + 1 ≠ basic := Nat.ne_of_gt (Nat.lt_succ_of_le h.basic_le)
      simp [inserted, hne]
    le := Nat.le_refl _
    steps := by simp [inserted] }

/-- One character of the label is passed. -/
theorem Follows.pass (h : Follows basic n before (c :: after) w r)
    (hpass : w.pass? n basic c = some w') :
    ∃ r', Echoes w r w' r' ∧ Follows basic n (before ++ [c]) after w' r' := by
  unfold Writer.pass? at hpass
  split at hpass
  · -- The reader has the character already, and one step leads past it.
    rename_i hlt
    have hle : c.toNat ≤ n := Nat.le_of_lt hlt
    have hsteps := h.steps
    cases hpass
    refine ⟨r, .refl rfl, { h with label := ?_, steps := ?_ }⟩
    · simp [h.label, hlt, hle]
    · simp [hle]
      omega
  · rename_i hge
    split at hpass
    · rename_i heq
      subst heq
      split at hpass
      · cases hpass
      · rename_i hfits
        cases hpass
        exact h.insert (Nat.not_le.mp hfits)
    · -- The reader will not see the character before a greater number is reached.
      rename_i hne
      have hgt : ¬ c.toNat ≤ n := by omega
      cases hpass
      refine ⟨r, .refl rfl, { h with label := ?_, steps := ?_ }⟩
      · simp [h.label, hge, hgt]
      · simp [hgt, h.steps]

/-- The rest of the label is passed. -/
theorem Follows.passAll (h : Follows basic n before after w r)
    (hpass : after.foldlM (Writer.pass? n basic) w = some w') :
    ∃ r', Echoes w r w' r' ∧ Follows basic n (before ++ after) [] w' r' := by
  induction after generalizing before w r with
  | nil =>
    cases hpass
    exact ⟨r, .refl rfl, by rwa [List.append_nil]⟩
  | cons c after ih =>
    rw [List.foldlM_cons] at hpass
    obtain ⟨v, hv, hrest⟩ := Option.bind_eq_some_iff.mp hpass
    obtain ⟨r₁, hechoes, hfollows⟩ := h.pass hv
    obtain ⟨r', hechoes', hfollows'⟩ := ih hfollows hrest
    rw [List.append_assoc, List.singleton_append] at hfollows'
    exact ⟨r', hechoes.trans hechoes', hfollows'⟩

/-- The writer goes on to a greater number, if the label has no characters in between. -/
theorem Follows.skip (h : Follows basic next [] label w r) (hle : next ≤ n)
    (hgap : ∀ c ∈ label, c.toNat < n → c.toNat < next) :
    Follows basic n [] label { w with delta := w.delta + (n - next) * (w.done + 1) } r := by
  refine { h with label := ?_, le := Nat.le_trans h.le hle, steps := ?_ }
  · rw [h.label]
    refine congrArg _ (List.filter_congr fun c hc => ?_)
    rw [decide_eq_decide]
    exact ⟨fun hlt => Nat.lt_of_lt_of_le hlt hle, hgap c hc⟩
  · have hle' := h.le
    have hsteps := h.steps
    have hsplit : n - r.n = (next - r.n) + (n - next) := by omega
    simp only [hsplit, Nat.add_mul, List.filter_nil, List.length_nil] at hsteps ⊢
    omega

/-- Behind the end of the label, the writer is at the beginning for the next number. -/
theorem Follows.turn (h : Follows basic n label [] w r) :
    Follows basic (n + 1) [] label { w with delta := w.delta + 1 } r := by
  have hsame : label.filter (·.toNat < n + 1) = label.filter (·.toNat ≤ n) :=
    List.filter_congr fun c _ => decide_eq_decide.mpr Nat.lt_succ_iff
  have hlength : (label.filter (·.toNat ≤ n)).length = w.done := by
    rw [← h.done, h.label, List.filter_nil, List.append_nil]
  refine { h with label := ?_, le := Nat.le_succ_of_le h.le, steps := ?_ }
  · rw [h.label, hsame, List.filter_nil, List.filter_nil, List.append_nil, List.nil_append]
  · have hle := h.le
    have hsteps := h.steps
    have hsplit : n + 1 - r.n = (n - r.n) + 1 := by omega
    simp only [hsplit, Nat.add_mul, List.filter_nil, List.length_nil]
    omega

/-- **All insertions**: the reader ends with the label. -/
theorem Follows.insertAll (h : Follows basic next [] label w r) {others : List Nat}
    (hsorted : others.Pairwise (· < ·)) (hle : ∀ n ∈ others, next ≤ n)
    (hmem : ∀ c ∈ label, next ≤ c.toNat → c.toNat ∈ others)
    (hinsert : Writer.insertAll? label basic w next others = some w') :
    ∃ r', Echoes w r w' r' ∧ r'.label = label := by
  induction others generalizing next w r with
  | nil =>
    cases hinsert
    refine ⟨r, .refl rfl, ?_⟩
    rw [h.label, List.filter_nil, List.nil_append, List.filter_eq_self]
    intro c hc
    exact decide_eq_true (Nat.not_le.mp fun hnext => List.not_mem_nil (hmem c hc hnext))
  | cons n others ih =>
    rw [List.pairwise_cons] at hsorted
    obtain ⟨passed, hpassed, hrest⟩ := Option.bind_eq_some_iff.mp hinsert
    -- The characters below `n` have all been inserted, since `n` is the first of the others.
    have hgap : ∀ c ∈ label, c.toNat < n → c.toNat < next := by
      intro c hc hlt
      refine Nat.not_le.mp fun hnext => ?_
      rcases List.mem_cons.mp (hmem c hc hnext) with heq | hin
      · omega
      · have := hsorted.1 _ hin
        omega
    have hstart := h.skip (hle n List.mem_cons_self) hgap
    obtain ⟨r₁, hechoes, hfollows⟩ := hstart.passAll hpassed
    have hmem' : ∀ c ∈ label, n + 1 ≤ c.toNat → c.toNat ∈ others := by
      intro c hc hn
      have hnext := hle n List.mem_cons_self
      rcases List.mem_cons.mp (hmem c hc (by omega)) with heq | hin
      · omega
      · exact hin
    obtain ⟨r', hechoes', hlabel⟩ := ih hfollows.turn hsorted.2 (fun m => hsorted.1 m) hmem' hrest
    exact ⟨r', (hechoes.trans (.refl rfl)).trans hechoes', hlabel⟩

end Reader

/-! ### Labels -/

section Label

variable {label ascii tail : List Char}

/-- Equal numbers side by side are one number. -/
theorem pairwise_eraseDups {s : List Nat} (h : s.Pairwise (· ≤ ·)) :
    s.eraseDups.Pairwise (· < ·) := by
  induction hn : s.length using Nat.strongRecOn generalizing s with
  | _ n ih =>
    cases s with
    | nil => exact .nil
    | cons a s =>
      rw [List.pairwise_cons] at h
      rw [List.eraseDups_cons, List.pairwise_cons]
      have hshort : (s.filter fun b => !b == a).length < n := by
        rw [← hn, List.length_cons]
        exact Nat.lt_succ_of_le (List.length_filter_le _ _)
      refine ⟨fun b hb => ?_, ih _ hshort (h.2.filter _) rfl⟩
      rw [List.mem_eraseDups, List.mem_filter] at hb
      have hle := h.1 b hb.1
      have hne : b ≠ a := by simpa using hb.2
      omega

/-- The numbers of the characters that are no ASCII ascend. -/
theorem pairwise_numbers (label : List Char) :
    ((label.filter (!isBasic ·)).map Char.toNat).mergeSort.eraseDups.Pairwise (· < ·) := by
  refine pairwise_eraseDups ?_
  have hsorted := @List.pairwise_mergeSort Nat (fun a b => decide (a ≤ b))
    (by simp only [decide_eq_true_eq]; omega)
    (by simp only [Bool.or_eq_true, decide_eq_true_eq]; omega)
    ((label.filter (!isBasic ·)).map Char.toNat)
  exact hsorted.imp fun h => of_decide_eq_true h

theorem mem_numbers_iff {n : Nat} :
    n ∈ ((label.filter (!isBasic ·)).map Char.toNat).mergeSort.eraseDups ↔
      128 ≤ n ∧ ∃ c ∈ label, c.toNat = n := by
  simp only [List.mem_eraseDups, List.mem_mergeSort, List.mem_map, List.mem_filter, isBasic,
    Bool.not_eq_true', decide_eq_false_iff_not, Nat.not_lt]
  constructor
  · rintro ⟨c, ⟨hc, hle⟩, rfl⟩
    exact ⟨hle, c, hc, rfl⟩
  · rintro ⟨hle, c, hc, rfl⟩
    exact ⟨c, ⟨hc, hle⟩, rfl⟩

/-- The ASCII characters of a label are told apart from the digits. -/
theorem cutBasic_framed (basic : List Char) (h : ∀ c ∈ tail, (c == '-') = false) :
    cutBasic ((if basic.isEmpty then [] else basic ++ ['-']) ++ tail) = (basic, tail) := by
  cases basic with
  | nil => simp [cutBasic, cutAtLast?_of_forall h]
  | cons c basic =>
    rw [List.isEmpty_cons, if_neg Bool.false_ne_true, List.append_assoc, List.singleton_append,
      cutBasic, cutAtLast?_append (p := (· == '-')) rfl h]

/-- **A label that has an ASCII form is read back from it.** The form consists of the characters in
ASCII and of digits. -/
theorem decode?_of_encode? (h : encode? label = some ascii) :
    decode? ascii = some label ∧ ∀ c ∈ ascii, c ∈ label ∧ isBasic c ∨ c = '-' ∨ IsDigit c := by
  obtain ⟨written, hinsert, hascii⟩ := Option.bind_eq_some_iff.mp h
  generalize hbasic : label.filter isBasic = basic at hinsert hascii
  have hstart : Follows basic.length 128 [] label ⟨basic.length, 0, 72, []⟩ ⟨basic, 128, 0, 72⟩ :=
    ⟨hbasic.symm, rfl, rfl, Nat.le_refl _, by simp, Nat.le_refl _, by simp⟩
  obtain ⟨r', ⟨tail, htail, hdigits, k, hk, hrun⟩, hlabel⟩ :=
    hstart.insertAll (pairwise_numbers label) (fun n hn => (mem_numbers_iff.mp hn).1)
      (fun c hc hle => mem_numbers_iff.mpr ⟨hle, c, hc, rfl⟩) hinsert
  have hhyphen : ∀ c ∈ tail, (c == '-') = false := fun c hc =>
    beq_eq_false_iff_ne.mpr (hdigits c hc).ne_hyphen
  rw [List.nil_append] at htail
  rw [htail] at hascii
  obtain rfl := Option.some.inj hascii
  have hall : ∀ c ∈ basic, c ∈ label ∧ isBasic c := by
    intro c hc
    rwa [← hbasic, List.mem_filter] at hc
  constructor
  · have hread := hrun (tail.length - k) []
    rw [List.append_nil, Nat.add_sub_cancel' hk] at hread
    have hend (fuel : Nat) : r'.run? fuel [] = some label := by
      cases fuel <;> exact congrArg some hlabel
    rw [decode?, cutBasic_framed basic hhyphen]
    exact (if_pos (List.all_eq_true.mpr fun c hc => (hall c hc).2)).trans (hread.trans (hend _))
  · intro c hc
    rcases List.mem_append.mp hc with hc | hc
    · split at hc
      · exact absurd hc List.not_mem_nil
      · rcases List.mem_append.mp hc with hc | hc
        · exact .inl (hall c hc)
        · exact .inr (.inl (List.mem_singleton.mp hc))
    · exact .inr (.inr (hdigits c hc))

end Label

end RangeSync.Idna.Punycode
