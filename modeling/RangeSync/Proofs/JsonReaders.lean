import RangeSync.Proofs.Counts

/-!
# What a reader of JSON takes up

A text is read from the front: a reader takes up a part of it and leaves the rest. What comes later
must have no say in what has been read, or else a plan could not be cut out of the blanks around it.
But a reader may look at the first character that it leaves, since a number only ends where the next
character does not belong to it.

So there are several kinds of readers. A reader is `RangeSync.Json.Local` if it can be left with any
other rest that begins with the same character, and `RangeSync.Json.Closed` if it can be left with
any other rest at all, because it has seen the mark that closes what it reads. A local reader in
front of a closed one makes a closed one. That is how a list is closed, although the counts in it are
not.

Where a reader has to be run on a text that is known, this is not enough, and what it takes up is
said exactly (`RangeSync.Json.readElements_eq_ok_iff` and others).
-/

namespace RangeSync.Json

open Text Numeric

variable {α β γ ι : Type} {s t used rest rest' gap : List Char} {c : Char} {n : Nat}

/-! ### Rests and blanks -/

/-- The rests begin with the same character. -/
def Alike (rest rest' : List Char) : Prop :=
  ∃ c more more', rest = c :: more ∧ rest' = c :: more'

theorem alike_cons (c : Char) (rest rest' : List Char) : Alike (c :: rest) (c :: rest') :=
  ⟨c, rest, rest', rfl, rfl⟩

theorem Alike.append (h : Alike rest rest') (used : List Char) :
    Alike (used ++ rest) (used ++ rest') := by
  cases used with
  | nil => exact h
  | cons c used => exact alike_cons c (used ++ rest) (used ++ rest')

theorem skipGap_append (h : ∀ c ∈ gap, isGap c = true) : skipGap (gap ++ s) = skipGap s :=
  List.dropWhile_append_of_pos h

theorem skipGap_cons (h : isGap c = false) : skipGap (c :: s) = c :: s :=
  List.dropWhile_cons_of_neg (by simp [h])

theorem not_isGap_of_isDigit (h : isDigit c = true) : isGap c = false := by
  unfold isGap
  simp only [Bool.or_eq_false_iff, beq_eq_false_iff_ne]
  refine ⟨⟨⟨?_, ?_⟩, ?_⟩, ?_⟩ <;> rintro rfl <;> exact absurd h (by decide)

/-- What the blanks are in front of does not begin with one. -/
theorem not_isGap_of_skipGap (h : skipGap s = c :: t) : isGap c = false := by
  have hhead := List.head?_dropWhile_not isGap s
  rw [show s.dropWhile isGap = c :: t from h] at hhead
  simpa using hhead

theorem skipGap_skipGap (s : List Char) : skipGap (skipGap s) = skipGap s := by
  rcases h : skipGap s with _ | ⟨c, t⟩
  · rfl
  · exact skipGap_cons (not_isGap_of_skipGap h)

/-- Blanks are passed over in the same way whatever they are in front of. -/
theorem exists_gap (h : skipGap s = t) : ∃ gap, s = gap ++ t ∧ (∀ c ∈ gap, isGap c = true) ∧
    ∀ t', Alike t t' → skipGap (gap ++ t') = t' := by
  have hblank : ∀ c ∈ s.takeWhile isGap, isGap c = true := fun c hc =>
    List.all_eq_true.mp List.all_takeWhile c hc
  refine ⟨s.takeWhile isGap, ?_, hblank, ?_⟩
  · rw [← h]
    exact List.takeWhile_append_dropWhile.symm
  · rintro _ ⟨c, more, more', rfl, rfl⟩
    rw [skipGap_append hblank, skipGap_cons (not_isGap_of_skipGap h)]
theorem skipGap_eq_nil_iff : skipGap s = [] ↔ ∀ c ∈ s, isGap c = true := by
  constructor
  · intro h
    obtain ⟨gap, rfl, hblank, -⟩ := exists_gap h
    rwa [List.append_nil]
  · intro h
    rw [← List.append_nil s, skipGap_append h]
    rfl

/-! ### Readers that go by what they take up -/

/-- **A reader that goes by what it takes up** and by the first character that it leaves. What it
returns for a rest is given by `out`. -/
def Local (f : List Char → Except Fault β) (out : List Char → β) : Prop :=
  ∀ s rest, f s = .ok (out rest) → ∃ used, s = used ++ rest ∧
    ∀ rest', Alike rest rest' → f (used ++ rest') = .ok (out rest')

/-- A reader that goes by what it takes up alone. -/
def Free (f : List Char → Except Fault β) (out : List Char → β) : Prop :=
  ∀ s rest, f s = .ok (out rest) → ∃ used, s = used ++ rest ∧
    ∀ rest', f (used ++ rest') = .ok (out rest')

/-- **A reader that goes by what it takes up**, up to a mark that closes it. -/
def Closed (mark : Char) (f : List Char → Except Fault β) (out : List Char → β) : Prop :=
  ∀ s rest, f s = .ok (out rest) → ∃ used, s = used ++ mark :: rest ∧
    ∀ rest', f (used ++ mark :: rest') = .ok (out rest')

section Rules

variable {f : List Char → Except Fault β} {k : β → Except Fault γ} {pick : ι → List Char → β}
  {out : List Char → γ} {end_ : List Char → β} {mark : Char}

theorem Closed.free (h : Closed mark f end_) : Free f end_ := by
  intro s rest hs
  obtain ⟨used, hused, hall⟩ := h s rest hs
  exact ⟨used ++ [mark], by simpa using hused, fun rest' => by simpa using hall rest'⟩

theorem Free.local (h : Free f end_) : Local f end_ := by
  intro s rest hs
  obtain ⟨used, hused, hall⟩ := h s rest hs
  exact ⟨used, hused, fun rest' _ => hall rest'⟩

/-- One reader behind another. -/
theorem Local.bind (hpick : ∀ s b, f s = .ok b → ∃ i rest, b = pick i rest)
    (hf : ∀ i, Local f (pick i)) (hk : ∀ i, Local (fun t => k (pick i t)) out) :
    Local (fun s => f s >>= k) out := by
  intro s rest hs
  obtain ⟨b, hb, h⟩ := bind_eq_ok_iff.mp hs
  obtain ⟨i, t, rfl⟩ := hpick s b hb
  obtain ⟨used, rfl, hused⟩ := hf i s t hb
  obtain ⟨used', rfl, hused'⟩ := hk i t rest h
  refine ⟨used ++ used', (List.append_assoc _ _ _).symm, fun rest' halike => ?_⟩
  rw [List.append_assoc]
  exact bind_eq_ok_iff.mpr ⟨_, hused _ (halike.append used'), hused' rest' halike⟩

theorem Free.bind (hpick : ∀ s b, f s = .ok b → ∃ i rest, b = pick i rest)
    (hf : ∀ i, Free f (pick i)) (hk : ∀ i, Free (fun t => k (pick i t)) out) :
    Free (fun s => f s >>= k) out := by
  intro s rest hs
  obtain ⟨b, hb, h⟩ := bind_eq_ok_iff.mp hs
  obtain ⟨i, t, rfl⟩ := hpick s b hb
  obtain ⟨used, rfl, hused⟩ := hf i s t hb
  obtain ⟨used', rfl, hused'⟩ := hk i t rest h
  refine ⟨used ++ used', (List.append_assoc _ _ _).symm, fun rest' => ?_⟩
  rw [List.append_assoc]
  exact bind_eq_ok_iff.mpr ⟨_, hused _, hused' rest'⟩

/-- **A closed reader behind a local one**: the mark stands for all that comes after it. -/
theorem Closed.bind (hpick : ∀ s b, f s = .ok b → ∃ i rest, b = pick i rest)
    (hf : ∀ i, Local f (pick i)) (hk : ∀ i, Closed mark (fun t => k (pick i t)) out) :
    Closed mark (fun s => f s >>= k) out := by
  intro s rest hs
  obtain ⟨b, hb, h⟩ := bind_eq_ok_iff.mp hs
  obtain ⟨i, t, rfl⟩ := hpick s b hb
  obtain ⟨used, rfl, hused⟩ := hf i s t hb
  obtain ⟨used', rfl, hused'⟩ := hk i t rest h
  refine ⟨used ++ used', (List.append_assoc _ _ _).symm, fun rest' => ?_⟩
  rw [List.append_assoc]
  exact bind_eq_ok_iff.mpr ⟨_, hused _ ((alike_cons mark rest rest').append used'), hused' rest'⟩

/-- A mark behind blanks. -/
theorem closed_of_mark (h : ∀ s rest, f s = .ok (end_ rest) ↔ skipGap s = mark :: rest) :
    Closed mark f end_ := by
  intro s rest hs
  obtain ⟨gap, rfl, -, hgap⟩ := exists_gap ((h s rest).mp hs)
  exact ⟨gap, rfl, fun rest' => (h _ _).mpr (hgap _ (alike_cons mark rest rest'))⟩

/-- A closed reader behind blanks and another mark. -/
theorem Closed.behind_mark {g : List Char → Except Fault γ}
    (h : ∀ s rest, f s = .ok (end_ rest) ↔ ∃ t, skipGap s = c :: t ∧ g t = .ok (out rest))
    (hg : Closed mark g out) : Closed mark f end_ := by
  intro s rest hs
  obtain ⟨t, hskip, ht⟩ := (h s rest).mp hs
  obtain ⟨gap, rfl, -, hgap⟩ := exists_gap hskip
  obtain ⟨used, rfl, hused⟩ := hg t rest ht
  refine ⟨gap ++ c :: used, by simp, fun rest' => (h _ _).mpr ⟨_, ?_, hused rest'⟩⟩
  rw [List.append_assoc]
  exact hgap _ (alike_cons c _ _)

end Rules

/-! ### Names and strings -/

theorem readName_eq_ok_iff {name : List Char} : readName name s = .ok rest ↔ s = name ++ rest := by
  induction name generalizing s with
  | nil => exact ⟨fun h => Except.ok.inj h, fun h => congrArg Except.ok h⟩
  | cons c name ih =>
    cases s with
    | nil =>
      exact ⟨fun h => (by cases h), fun h => (by cases h)⟩
    | cons d s =>
      rw [readName, List.cons_append, List.cons.injEq]
      split
      · rename_i hd
        rw [ih]
        exact (and_iff_right hd).symm
      · rename_i hd
        exact iff_of_false (fun h => by cases h) fun h => hd h.1

/-- Every character has a byte. -/
theorem length_le_byteLength (s : List Char) : s.length ≤ byteLength s := by
  induction s with
  | nil => exact Nat.le_refl 0
  | cons c s ih =>
    have hc := c.utf8Size_pos
    rw [List.length_cons]
    change s.length + 1 ≤ c.utf8Size + byteLength s
    omega

theorem readHex_free (n : Nat) : Free readHex (n, ·) := by
  intro s rest h
  unfold readHex at h
  split at h
  · cases h
  · rename_i hshort
    split at h
    · rename_i a b c d t
      split at h
      · rename_i ha hb hc hd
        cases h
        refine ⟨[a, b, c, d], rfl, fun rest' => ?_⟩
        have hlong : ¬ byteLength ([a, b, c, d] ++ rest') < 4 := by
          have hle := length_le_byteLength ([a, b, c, d] ++ rest')
          rw [List.length_append] at hle
          exact Nat.not_lt.mpr (Nat.le_trans (Nat.le_add_right 4 _) hle)
        unfold readHex
        rw [if_neg hlong]
        dsimp only [List.cons_append, List.nil_append]
        rw [ha, hb, hc, hd]
      · cases h
    · cases h

theorem expectInEscape_eq_ok_iff : expectInEscape c s = .ok rest ↔ s = c :: rest := by
  unfold expectInEscape
  cases s with
  | nil => exact iff_of_false (fun h => by cases h) nofun
  | cons d s =>
    dsimp only
    rw [List.cons.injEq]
    split
    · rename_i hd
      exact ⟨fun h => ⟨hd, Except.ok.inj h⟩, fun h => congrArg _ h.2⟩
    · rename_i hd
      exact iff_of_false (fun h => by cases h) fun h => hd h.1

theorem readNumbered_free (c : Char) : Free readNumbered (c, ·) := by
  refine Free.bind (fun _ b _ => ⟨b.1, b.2, rfl⟩) readHex_free fun n => ?_
  intro s rest h
  dsimp only at h ⊢
  split at h
  · cases h
  · rename_i hlow
    split at h
    · rename_i hhigh
      obtain ⟨t, ht, h₁⟩ := bind_eq_ok_iff.mp h
      obtain ⟨t', ht', h₂⟩ := bind_eq_ok_iff.mp h₁
      obtain ⟨⟨m, t''⟩, hm, h₃⟩ := bind_eq_ok_iff.mp h₂
      obtain rfl := expectInEscape_eq_ok_iff.mp ht
      obtain rfl := expectInEscape_eq_ok_iff.mp ht'
      obtain ⟨used, rfl, hused⟩ := readHex_free m _ _ hm
      split at h₃
      · rename_i hsecond
        obtain ⟨rfl, rfl⟩ := Prod.mk.inj (Except.ok.inj h₃)
        refine ⟨'\\' :: 'u' :: used, rfl, fun rest' => ?_⟩
        rw [if_neg hlow, if_pos hhigh]
        refine bind_eq_ok_iff.mpr ⟨_, expectInEscape_eq_ok_iff.mpr rfl, ?_⟩
        refine bind_eq_ok_iff.mpr ⟨_, expectInEscape_eq_ok_iff.mpr rfl, ?_⟩
        refine bind_eq_ok_iff.mpr ⟨_, hused rest', ?_⟩
        dsimp only
        rw [if_pos hsecond]
      · cases h₃
    · rename_i hhigh
      cases h
      exact ⟨[], rfl, fun rest' => by rw [if_neg hlow, if_neg hhigh]; rfl⟩

/-- A letter that stands for a character. -/
theorem readEscape_cons (hc : c ≠ 'u') : readEscape (c :: rest) =
    match escaped? c with
    | some d => .ok (d, rest)
    | none => failAfter .invalidEscape (c :: rest) := by
  unfold readEscape
  split
  · rename_i heq
    cases heq
  · rename_i heq
    exact absurd (List.cons.inj heq).1 hc
  · rename_i heq
    cases heq
    rfl

theorem readEscape_free (c : Char) : Free readEscape (c, ·) := by
  intro s rest h
  cases s with
  | nil => cases h
  | cons d s =>
    by_cases hd : d = 'u'
    · subst hd
      obtain ⟨used, rfl, hused⟩ := readNumbered_free c _ _ h
      exact ⟨'u' :: used, rfl, hused⟩
    · rw [readEscape_cons hd] at h
      split at h
      · rename_i he
        cases h
        refine ⟨[d], rfl, fun rest' => ?_⟩
        rw [List.singleton_append, readEscape_cons hd, he]
      · cases h

theorem skipEscape_free : Free skipEscape id := by
  intro s rest h
  cases s with
  | nil => cases h
  | cons d s =>
    by_cases hd : d = 'u'
    · subst hd
      obtain ⟨⟨n, t⟩, hn, rfl⟩ := map_eq_ok_iff.mp h
      obtain ⟨used, hs, hused⟩ := readHex_free n _ _ hn
      exact ⟨'u' :: used, congrArg _ hs, fun rest' =>
        map_eq_ok_iff.mpr ⟨_, hused rest', rfl⟩⟩
    · have hskip (rest : List Char) : skipEscape (d :: rest) =
          if (escaped? d).isSome then .ok rest else failAfter .invalidEscape (d :: rest) := by
        rw [skipEscape]
        exact hd
      rw [hskip] at h
      split at h
      · rename_i he
        cases h
        exact ⟨[d], rfl, fun rest' => (hskip rest').trans (if_pos he)⟩
      · cases h

section Strings

variable {fuel : Nat} {chars : List Char}

theorem readChars_escape : readChars (fuel + 1) ('\\' :: rest) = (do
    let (c, rest) ← readEscape rest
    let (more, rest) ← readChars fuel rest
    .ok (c :: more, rest)) := rfl

theorem readChars_cons (hquote : c ≠ '"') (hslash : c ≠ '\\') (hc : ¬ c.toNat < 0x20) :
    readChars (fuel + 1) (c :: rest) = (do
      let (more, rest) ← readChars fuel rest
      .ok (c :: more, rest)) := by
  rw [readChars, if_neg hc]
  · exact hquote
  · exact hslash

/-- The characters of a string. The fuel only has to last for what is taken up. -/
theorem readChars_closed (h : readChars fuel s = .ok (chars, rest)) :
    ∃ used, s = used ++ '"' :: rest ∧ ∀ rest' fuel', used.length < fuel' →
      readChars fuel' (used ++ '"' :: rest') = .ok (chars, rest') := by
  induction fuel, s using readChars.induct generalizing chars with
  | case1 s => cases h
  | case2 fuel => cases h
  | case3 fuel s =>
    cases h
    refine ⟨[], rfl, fun rest' fuel' hlt => ?_⟩
    obtain ⟨n, rfl⟩ := Nat.exists_eq_add_one.mpr hlt
    rfl
  | case4 fuel s ih =>
    rw [readChars_escape] at h
    obtain ⟨⟨d, t⟩, hd, h⟩ := bind_eq_ok_iff.mp h
    obtain ⟨⟨more, t'⟩, hmore, h⟩ := bind_eq_ok_iff.mp h
    cases h
    obtain ⟨used, rfl, hused⟩ := readEscape_free d s t hd
    obtain ⟨used', rfl, hused'⟩ := ih t hmore
    refine ⟨'\\' :: (used ++ used'), by simp, fun rest' fuel' hlt => ?_⟩
    rw [List.length_cons, List.length_append] at hlt
    obtain ⟨n, rfl⟩ := Nat.exists_eq_add_one.mpr (Nat.zero_lt_of_lt hlt)
    rw [List.cons_append, List.append_assoc, readChars_escape]
    refine bind_eq_ok_iff.mpr ⟨_, hused _, ?_⟩
    exact bind_eq_ok_iff.mpr ⟨_, hused' rest' n (by omega), rfl⟩
  | case5 fuel c s hquote hslash hc =>
    rw [readChars, if_pos hc] at h
    · cases h
    · exact hquote
    · exact hslash
  | case6 fuel c s hquote hslash hc ih =>
    rw [readChars_cons hquote hslash hc] at h
    obtain ⟨⟨more, t⟩, hmore, h⟩ := bind_eq_ok_iff.mp h
    cases h
    obtain ⟨used, rfl, hused⟩ := ih hmore
    refine ⟨c :: used, rfl, fun rest' fuel' hlt => ?_⟩
    obtain ⟨n, rfl⟩ := Nat.exists_eq_add_one.mpr (Nat.zero_lt_of_lt hlt)
    rw [List.cons_append, readChars_cons hquote hslash hc]
    exact bind_eq_ok_iff.mpr ⟨_, hused rest' n (Nat.lt_of_succ_lt_succ hlt), rfl⟩

theorem readString_closed (text : String) : Closed '"' readString (text, ·) := by
  intro s rest h
  obtain ⟨⟨chars, t⟩, hchars, h⟩ := map_eq_ok_iff.mp h
  obtain ⟨rfl, rfl⟩ := Prod.mk.inj h
  obtain ⟨used, hs, hused⟩ := readChars_closed hchars
  refine ⟨used, hs, fun rest' => map_eq_ok_iff.mpr ⟨_, hused rest' _ ?_, rfl⟩⟩
  rw [List.length_append]
  omega

theorem skipChars_escape : skipChars (fuel + 1) ('\\' :: rest) = (do
    let rest ← skipEscape rest
    skipChars fuel rest) := rfl

theorem skipChars_cons (hquote : c ≠ '"') (hslash : c ≠ '\\') (hc : ¬ c.toNat < 0x20) :
    skipChars (fuel + 1) (c :: rest) = skipChars fuel rest := by
  rw [skipChars, if_neg hc]
  · exact hquote
  · exact hslash

theorem skipChars_closed (h : skipChars fuel s = .ok rest) :
    ∃ used, s = used ++ '"' :: rest ∧ ∀ rest' fuel', used.length < fuel' →
      skipChars fuel' (used ++ '"' :: rest') = .ok rest' := by
  induction fuel, s using skipChars.induct with
  | case1 s => cases h
  | case2 fuel => cases h
  | case3 fuel s =>
    cases h
    refine ⟨[], rfl, fun rest' fuel' hlt => ?_⟩
    obtain ⟨n, rfl⟩ := Nat.exists_eq_add_one.mpr hlt
    rfl
  | case4 fuel s ih =>
    rw [skipChars_escape] at h
    obtain ⟨t, ht, hmore⟩ := bind_eq_ok_iff.mp h
    obtain ⟨used, rfl, hused⟩ := skipEscape_free s t ht
    obtain ⟨used', rfl, hused'⟩ := ih t hmore
    refine ⟨'\\' :: (used ++ used'), by simp, fun rest' fuel' hlt => ?_⟩
    rw [List.length_cons, List.length_append] at hlt
    obtain ⟨n, rfl⟩ := Nat.exists_eq_add_one.mpr (Nat.zero_lt_of_lt hlt)
    rw [List.cons_append, List.append_assoc, skipChars_escape]
    exact bind_eq_ok_iff.mpr ⟨_, hused _, hused' rest' n (by omega)⟩
  | case5 fuel c s hquote hslash hc =>
    rw [skipChars, if_pos hc] at h
    · cases h
    · exact hquote
    · exact hslash
  | case6 fuel c s hquote hslash hc ih =>
    rw [skipChars_cons hquote hslash hc] at h
    obtain ⟨used, rfl, hused⟩ := ih h
    refine ⟨c :: used, rfl, fun rest' fuel' hlt => ?_⟩
    obtain ⟨n, rfl⟩ := Nat.exists_eq_add_one.mpr (Nat.zero_lt_of_lt hlt)
    rw [List.cons_append, skipChars_cons hquote hslash hc]
    exact hused rest' n (Nat.lt_of_succ_lt_succ hlt)

theorem skipString_closed : Closed '"' skipString id := by
  intro s rest h
  obtain ⟨used, hs, hused⟩ := skipChars_closed h
  refine ⟨used, hs, fun rest' => hused rest' _ ?_⟩
  rw [List.length_append]
  omega

end Strings

/-! ### Counts and lists -/

theorem readCount_local (w : UInt64) : Local readCount (w, ·) := by
  intro s rest h
  obtain ⟨hskip, hstops⟩ := readCount_eq_ok_iff.mp h
  obtain ⟨gap, rfl, -, hgap⟩ := exists_gap hskip
  refine ⟨gap ++ (decimal w.toNat).toList, (List.append_assoc _ _ _).symm, fun rest' halike => ?_⟩
  refine readCount_eq_ok_iff.mpr ⟨?_, ?_⟩
  · rw [List.append_assoc, hgap _ (halike.append _)]
  · obtain ⟨c, more, more', rfl, rfl⟩ := halike
    exact hstops

theorem readOptionalCount_eq_ok_iff {w : Option UInt64} : readOptionalCount s = .ok (w, rest) ↔
    (w = none ∧ skipGap s = ['n', 'u', 'l', 'l'] ++ rest) ∨
    ∃ n, w = some n ∧ readCount s = .ok (n, rest) := by
  have hcount : readCount s = readCount (skipGap s) := by
    unfold readCount
    rw [skipGap_skipGap]
  unfold readOptionalCount
  rw [hcount]
  split
  · rename_i t hskip
    have hnone (n : UInt64) : readCount ('n' :: t) ≠ .ok (n, rest) := failExpected_ne_ok
    constructor
    · intro h
      obtain ⟨t', ht, h⟩ := map_eq_ok_iff.mp h
      cases h
      exact .inl ⟨rfl, hskip.trans (congrArg _ (readName_eq_ok_iff.mp ht))⟩
    · rintro (⟨rfl, hname⟩ | ⟨n, rfl, hn⟩)
      · rw [hskip] at hname
        exact map_eq_ok_iff.mpr ⟨rest, readName_eq_ok_iff.mpr (List.cons.inj hname).2, rfl⟩
      · exact absurd (hskip ▸ hn) (hnone n)
  · rename_i hname
    constructor
    · intro h
      obtain ⟨⟨n, t⟩, hn, h⟩ := map_eq_ok_iff.mp h
      cases h
      exact .inr ⟨n, rfl, hn⟩
    · rintro (⟨_, h⟩ | ⟨n, rfl, hn⟩)
      · exact absurd h (hname _)
      · exact map_eq_ok_iff.mpr ⟨_, hn, rfl⟩

theorem readOptionalCount_local (w : Option UInt64) : Local readOptionalCount (w, ·) := by
  intro s rest h
  obtain ⟨rfl, hskip⟩ | ⟨n, rfl, hn⟩ := readOptionalCount_eq_ok_iff.mp h
  · obtain ⟨gap, rfl, -, hgap⟩ := exists_gap hskip
    refine ⟨gap ++ ['n', 'u', 'l', 'l'], by simp, fun rest' _ => ?_⟩
    refine readOptionalCount_eq_ok_iff.mpr (.inl ⟨rfl, ?_⟩)
    rw [List.append_assoc]
    exact hgap _ (alike_cons _ _ _)
  · obtain ⟨used, hs, hused⟩ := readCount_local n s rest hn
    exact ⟨used, hs, fun rest' halike =>
      readOptionalCount_eq_ok_iff.mpr (.inr ⟨n, rfl, hused rest' halike⟩)⟩

/-- A list ends, or it goes on with another element. Only the first element has no comma. -/
theorem nextElement_eq_ok_iff {isFirst more : Bool} : nextElement isFirst s = .ok (more, rest) ↔
    (more = false ∧ skipGap s = rest ∧ ∃ t, rest = ']' :: t) ∨
    (more = true ∧ (∃ c t, rest = c :: t ∧ c ≠ ']') ∧
      ((isFirst = true ∧ skipGap s = rest) ∨
        (isFirst = false ∧ ∃ t, skipGap s = ',' :: t ∧ skipGap t = rest))) := by
  unfold nextElement failAfter
  constructor
  · intro h
    split at h
    · cases h
    · rename_i t hskip
      cases h
      exact .inl ⟨rfl, hskip, t, rfl⟩
    · rename_i c t hc hskip
      split at h
      · rename_i hfirst
        cases h
        exact .inr ⟨rfl, ⟨c, t, rfl, hc⟩, .inl ⟨hfirst, hskip⟩⟩
      · rename_i hfirst
        split at h
        · rename_i hcomma
          subst hcomma
          split at h
          · cases h
          · cases h
          · rename_i u hnil hend
            cases h
            refine .inr ⟨rfl, ?_, .inr ⟨Bool.eq_false_iff.mpr hfirst, t, hskip, rfl⟩⟩
            rcases hu : skipGap t with _ | ⟨d, u⟩
            · exact absurd hu hnil
            · refine ⟨d, u, rfl, ?_⟩
              rintro rfl
              exact hend u hu
        · cases h
  · rintro (⟨rfl, hskip, t, rfl⟩ | ⟨rfl, ⟨c, t, rfl, hc⟩, ⟨rfl, hskip⟩ | ⟨rfl, t', hskip, hnext⟩⟩)
    · rw [hskip]
      rfl
    · rw [hskip]
      split
      · rename_i heq
        cases heq
      · rename_i heq
        exact absurd (List.cons.inj heq).1 hc
      · rename_i heq
        cases heq
        rfl
    · rw [hskip]
      split
      · rename_i heq
        cases heq
      · rename_i heq
        cases heq
      · rename_i heq
        cases heq
        rw [if_neg Bool.false_ne_true, if_pos rfl, hnext]
        split
        · rename_i heq
          cases heq
        · rename_i heq
          exact absurd (List.cons.inj heq).1 hc
        · rfl

theorem nextElement_local (isFirst more : Bool) : Local (nextElement isFirst) (more, ·) := by
  intro s rest h
  obtain ⟨rfl, hskip, t, rfl⟩ | ⟨rfl, ⟨c, t, rfl, hc⟩, hnext⟩ := nextElement_eq_ok_iff.mp h
  · obtain ⟨gap, rfl, -, hgap⟩ := exists_gap hskip
    refine ⟨gap, rfl, fun rest' halike => nextElement_eq_ok_iff.mpr (.inl ⟨rfl, hgap _ halike, ?_⟩)⟩
    obtain ⟨_, _, t', heq, rfl⟩ := halike
    cases heq
    exact ⟨t', rfl⟩
  · have hbegins {rest' : List Char} (halike : Alike (c :: t) rest') :
        ∃ d t', rest' = d :: t' ∧ d ≠ ']' := by
      obtain ⟨_, _, t', heq, rfl⟩ := halike
      cases heq
      exact ⟨c, t', rfl, hc⟩
    obtain ⟨rfl, hskip⟩ | ⟨rfl, t', hskip, hnext⟩ := hnext
    · obtain ⟨gap, rfl, -, hgap⟩ := exists_gap hskip
      exact ⟨gap, rfl, fun rest' halike =>
        nextElement_eq_ok_iff.mpr (.inr ⟨rfl, hbegins halike, .inl ⟨rfl, hgap _ halike⟩⟩)⟩
    · obtain ⟨gap, rfl, -, hgap⟩ := exists_gap hskip
      obtain ⟨gap', rfl, -, hgap'⟩ := exists_gap hnext
      refine ⟨gap ++ ',' :: gap', by simp, fun rest' halike => ?_⟩
      refine nextElement_eq_ok_iff.mpr (.inr ⟨rfl, hbegins halike, .inr ⟨rfl, gap' ++ rest', ?_⟩⟩)
      rw [List.append_assoc]
      exact ⟨hgap _ (alike_cons _ _ _), hgap' _ halike⟩

theorem closeList_eq_ok_iff : closeList s = .ok rest ↔ skipGap s = ']' :: rest := by
  unfold closeList failAfter
  split
  · simp_all
  · rename_i t hskip
    rw [hskip, Except.ok.injEq, List.cons.injEq]
    exact (and_iff_right rfl).symm
  · split <;> simp_all
  · simp_all

theorem closeList_closed : Closed ']' closeList id :=
  closed_of_mark fun _ _ => closeList_eq_ok_iff

section Lists

variable {element : Reader α} {fuel : Nat} {as : List α}

/-- The elements of a list: none, or one with the elements of the rest. -/
theorem readElements_eq_ok_iff {isFirst : Bool} :
    readElements element (fuel + 1) isFirst s = .ok (as, rest) ↔
      ∃ more t, nextElement isFirst s = .ok (more, t) ∧
        ((more = false ∧ as = [] ∧ closeList t = .ok rest) ∨
          (more = true ∧ ∃ a t' bs, element t = .ok (a, t') ∧
            readElements element fuel false t' = .ok (bs, rest) ∧ as = a :: bs)) := by
  rw [readElements, bind_eq_ok_iff]
  constructor
  · rintro ⟨⟨more, t⟩, hnext, h⟩
    refine ⟨more, t, hnext, ?_⟩
    cases more with
    | false =>
      obtain ⟨t', hclose, h⟩ := bind_eq_ok_iff.mp h
      cases h
      exact .inl ⟨rfl, rfl, hclose⟩
    | true =>
      obtain ⟨⟨a, t'⟩, ha, h⟩ := bind_eq_ok_iff.mp h
      obtain ⟨⟨bs, t''⟩, hbs, h⟩ := bind_eq_ok_iff.mp h
      cases h
      exact .inr ⟨rfl, a, t', bs, ha, hbs, rfl⟩
  · rintro ⟨more, t, hnext, ⟨rfl, rfl, hclose⟩ | ⟨rfl, a, t', bs, ha, hbs, rfl⟩⟩
    · exact ⟨_, hnext, bind_eq_ok_iff.mpr ⟨_, hclose, rfl⟩⟩
    · exact ⟨_, hnext, bind_eq_ok_iff.mpr ⟨_, ha, bind_eq_ok_iff.mpr ⟨_, hbs, rfl⟩⟩⟩

/-- Every element takes up a character, so the fuel only has to last for what is taken up. -/
theorem readElements_closed {isFirst : Bool} {mark : Char}
    (helement : ∀ a, Closed mark element (a, ·))
    (h : readElements element fuel isFirst s = .ok (as, rest)) :
    ∃ used, s = used ++ ']' :: rest ∧ ∀ rest' fuel', used.length < fuel' →
      readElements element fuel' isFirst (used ++ ']' :: rest') = .ok (as, rest') := by
  induction fuel generalizing isFirst s as with
  | zero => cases h
  | succ fuel ih =>
    obtain ⟨more, t, hnext, hcases⟩ := readElements_eq_ok_iff.mp h
    obtain ⟨used, rfl, hused⟩ := nextElement_local isFirst more s t hnext
    obtain ⟨rfl, rfl, hclose⟩ | ⟨rfl, a, t', bs, ha, hbs, rfl⟩ := hcases
    · obtain ⟨used', rfl, hused'⟩ := closeList_closed _ _ hclose
      refine ⟨used ++ used', by simp, fun rest' fuel' hlt => ?_⟩
      obtain ⟨n, rfl⟩ := Nat.exists_eq_add_one.mpr (Nat.zero_lt_of_lt hlt)
      rw [List.append_assoc]
      exact readElements_eq_ok_iff.mpr ⟨false, _, hused _ ((alike_cons _ _ _).append used'),
        .inl ⟨rfl, rfl, hused' rest'⟩⟩
    · obtain ⟨used', rfl, hused'⟩ := helement a _ _ ha
      obtain ⟨used'', rfl, hused''⟩ := ih hbs
      refine ⟨used ++ used' ++ mark :: used'', by simp, fun rest' fuel' hlt => ?_⟩
      rw [List.length_append, List.length_append, List.length_cons] at hlt
      obtain ⟨n, rfl⟩ := Nat.exists_eq_add_one.mpr (Nat.zero_lt_of_lt hlt)
      rw [List.append_assoc, List.append_assoc, List.cons_append]
      exact readElements_eq_ok_iff.mpr ⟨true, _, hused _ ((alike_cons _ _ _).append used'),
        .inr ⟨rfl, a, _, bs, hused' _, hused'' rest' n (by omega), rfl⟩⟩

theorem readList_eq_ok_iff : readList element s = .ok (as, rest) ↔ ∃ t, skipGap s = '[' :: t ∧
    readElements element (t.length + 1) true t = .ok (as, rest) := by
  unfold readList
  split
  · simp_all [failAfter]
  · simp_all
  · rename_i h
    exact iff_of_false failExpected_ne_ok fun ⟨t, ht, _⟩ => h t ht

theorem readList_closed {mark : Char} (helement : ∀ a, Closed mark element (a, ·)) (as : List α) :
    Closed ']' (readList element) (as, ·) := by
  refine Closed.behind_mark (fun _ _ => readList_eq_ok_iff) fun s rest h => ?_
  obtain ⟨used, hs, hused⟩ := readElements_closed helement h
  exact ⟨used, hs, fun rest' => hused rest' _ (by rw [List.length_append]; omega)⟩

end Lists

section Tuples

variable {size left : Nat} {expected : String} {isFirst : Bool} {counts : List UInt64}

/-- A tuple takes exactly as many counts as are left. -/
theorem readCounts_succ_eq_ok_iff :
    readCounts size expected (left + 1) isFirst s = .ok (counts, rest) ↔
      ∃ t w t' more, nextElement isFirst s = .ok (true, t) ∧ readCount t = .ok (w, t') ∧
        readCounts size expected left false t' = .ok (more, rest) ∧ counts = w :: more := by
  rw [readCounts, bind_eq_ok_iff]
  constructor
  · rintro ⟨⟨more, t⟩, hnext, h⟩
    cases more with
    | false => cases h
    | true =>
      obtain ⟨⟨w, t'⟩, hw, h⟩ := bind_eq_ok_iff.mp h
      obtain ⟨⟨more, t''⟩, hmore, h⟩ := bind_eq_ok_iff.mp h
      cases h
      exact ⟨t, w, t', more, hnext, hw, hmore, rfl⟩
  · rintro ⟨t, w, t', more, hnext, hw, hmore, rfl⟩
    exact ⟨_, hnext, bind_eq_ok_iff.mpr ⟨_, hw, bind_eq_ok_iff.mpr ⟨_, hmore, rfl⟩⟩⟩

theorem readCounts_zero_eq_ok_iff :
    readCounts size expected 0 isFirst s = .ok (counts, rest) ↔
      counts = [] ∧ closeList s = .ok rest := by
  rw [readCounts, bind_eq_ok_iff]
  constructor
  · rintro ⟨t, hclose, h⟩
    cases h
    exact ⟨rfl, hclose⟩
  · rintro ⟨rfl, hclose⟩
    exact ⟨rest, hclose, rfl⟩

theorem readCounts_closed (counts : List UInt64) :
    Closed ']' (readCounts size expected left isFirst) (counts, ·) := by
  induction left generalizing isFirst counts with
  | zero =>
    intro s rest h
    obtain ⟨rfl, hclose⟩ := readCounts_zero_eq_ok_iff.mp h
    obtain ⟨used, hs, hused⟩ := closeList_closed s rest hclose
    exact ⟨used, hs, fun rest' => readCounts_zero_eq_ok_iff.mpr ⟨rfl, hused rest'⟩⟩
  | succ left ih =>
    intro s rest h
    obtain ⟨t, w, t', more, hnext, hw, hmore, rfl⟩ := readCounts_succ_eq_ok_iff.mp h
    obtain ⟨used, rfl, hused⟩ := nextElement_local isFirst true s t hnext
    obtain ⟨used', rfl, hused'⟩ := readCount_local w t t' hw
    obtain ⟨used'', rfl, hused''⟩ := ih more _ _ hmore
    refine ⟨used ++ used' ++ used'', by simp, fun rest' => ?_⟩
    have halike := (alike_cons ']' rest rest').append used''
    rw [List.append_assoc, List.append_assoc]
    exact readCounts_succ_eq_ok_iff.mpr
      ⟨_, w, _, more, hused _ (halike.append used'), hused' _ halike, hused'' rest', rfl⟩

theorem readTuple_eq_ok_iff : readTuple size s = .ok (counts, rest) ↔ ∃ t, skipGap s = '[' :: t ∧
    readCounts size ("a tuple of size " ++ decimal size) size true t = .ok (counts, rest) := by
  unfold readTuple
  dsimp only
  split
  · simp_all [failAfter]
  · simp_all
  · rename_i h
    exact iff_of_false failExpected_ne_ok fun ⟨t, ht, _⟩ => h t ht

theorem readTuple_closed (size : Nat) (counts : List UInt64) :
    Closed ']' (readTuple size) (counts, ·) :=
  Closed.behind_mark (fun _ _ => readTuple_eq_ok_iff) (readCounts_closed counts)

end Tuples
end RangeSync.Json
