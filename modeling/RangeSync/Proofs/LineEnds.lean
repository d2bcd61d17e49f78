import Mathlib.Data.List.Forall2
import RangeSync.Proofs.Grammar

/-!
# Line ends do not matter

Descriptors are written on many systems, and passed on by programs that change the ends of lines. So
carriage returns and spaces are put before a newline, or are not. For the reader this comes in
between everything: the bytes are cut at newlines, a line is taken for a text as a whole, what does
not count is dropped at its end, and only then it is looked for a separator.

What makes it harmless is said of one line. A byte at its end that does not count is a character of
its own, also behind bytes that are no text at all (`RangeSync.Text.encode_eq_concat_iff`), so a line
says the same with it and without it (`RangeSync.HeaderLine.SaysSame`). Lines that say the same are
headers, blank or offences together, and what bytes amount to is decided by that.

The result is that **two descriptors that differ in their line ends are read alike**
(`RangeSync.Descriptor.reads_line_ends_alike`). The one thing that may differ is how a line is quoted
that is no text.
-/

namespace RangeSync

open Text

/-! ### Bytes at the end of a text -/

/-- **A byte of ASCII at the end** of a text is its last character. -/
theorem Text.encode_eq_concat_iff {cs : List Char} {bytes : List UInt8} {b : UInt8} (hb : b < 0x80) :
    encode (String.ofList cs) = bytes ++ [b] ↔
      ∃ front, cs = front ++ [Char.ofNat b.toNat] ∧ encode (String.ofList front) = bytes := by
  have hone : String.utf8EncodeChar (Char.ofNat b.toNat) = [b] := (Spells.one hb).encode
  simp only [encode_ofList]
  constructor
  · intro h
    obtain rfl | ⟨front, c, rfl⟩ := List.eq_nil_or_concat cs
    · exact absurd h.symm (List.append_ne_nil_of_right_ne_nil _ (List.cons_ne_nil _ _))
    · -- the last byte belongs to the last character, which is that byte
      rw [List.concat_eq_append, List.flatMap_append, List.flatMap_singleton] at h
      obtain ⟨first, tail, hc⟩ := exists_spells c
      have hmem : b ∈ first :: tail := by
        have hlast := congrArg List.getLast? h
        rw [hc.encode, List.getLast?_append, List.getLast?_append,
          List.getLast?_eq_some_getLast (List.cons_ne_nil _ _), List.getLast?_singleton,
          Option.some_or, Option.some_or] at hlast
        exact Option.some.inj hlast ▸ List.getLast_mem _
      obtain rfl := hc.of_mem_of_lt hmem hb
      rw [hone] at h
      refine ⟨front, by rw [List.concat_eq_append], List.append_cancel_right h⟩
  · rintro ⟨front, rfl, rfl⟩
    rw [List.flatMap_append, List.flatMap_singleton, hone]

namespace HeaderLine

variable {raw raw' raw'' tail : List UInt8} {b : UInt8} {kept : List Char} {key value : String}

/-- **Two lines say the same**: the same is left of them, if they are texts. -/
structure SaysSame (raw raw' : List UInt8) : Prop where
  blank : IsBlank raw ↔ IsBlank raw'
  keeps : ∀ kept, Keeps raw kept ↔ Keeps raw' kept

theorem SaysSame.refl (raw : List UInt8) : SaysSame raw raw :=
  ⟨Iff.rfl, fun _ => Iff.rfl⟩

theorem SaysSame.symm (h : SaysSame raw raw') : SaysSame raw' raw :=
  ⟨h.blank.symm, fun kept => (h.keeps kept).symm⟩

theorem SaysSame.trans (h : SaysSame raw raw') (h' : SaysSame raw' raw'') : SaysSame raw raw'' :=
  ⟨h.blank.trans h'.blank, fun kept => (h.keeps kept).trans (h'.keeps kept)⟩

/-- A byte of a blank line at the end does not change what is left. -/
theorem keeps_concat_iff (hb : b = 10 ∨ b = 13 ∨ b = 32) : Keeps (raw ++ [b]) kept ↔ Keeps raw kept := by
  have hascii : b < 0x80 := by rcases hb with rfl | rfl | rfl <;> decide
  have htrailing : isTrailing (Char.ofNat b.toNat) = true := by
    rcases hb with rfl | rfl | rfl <;> rfl
  constructor
  · rintro ⟨dropped, hraw, hall, c, hc, hlast⟩
    obtain ⟨front, hfront, hraw⟩ := (encode_eq_concat_iff hascii).mp hraw
    obtain rfl | ⟨before, e, rfl⟩ := List.eq_nil_or_concat dropped
    · -- what is kept does not end in a character that is dropped
      rw [List.append_nil] at hfront
      rw [hfront, List.getLast?_concat] at hc
      rw [← Option.some.inj hc, htrailing] at hlast
      cases hlast
    · rw [List.concat_eq_append] at hall hfront
      rw [← List.append_assoc] at hfront
      obtain ⟨rfl, _⟩ := List.append_inj' hfront rfl
      exact ⟨before, hraw, fun a ha => hall a (List.mem_append_left _ ha), c, hc, hlast⟩
  · rintro ⟨dropped, hraw, hall, hkept⟩
    refine ⟨dropped ++ [Char.ofNat b.toNat], ?_, ?_, hkept⟩
    · rw [← List.append_assoc]
      exact (encode_eq_concat_iff hascii).mpr ⟨_, rfl, hraw⟩
    · exact List.forall_mem_append.mpr ⟨hall, List.forall_mem_singleton.mpr htrailing⟩

/-- **What does not count at the end may be put there.** -/
theorem saysSame_append (htail : ∀ b ∈ tail, b = 10 ∨ b = 13 ∨ b = 32) :
    SaysSame raw (raw ++ tail) := by
  induction tail generalizing raw with
  | nil =>
    rw [List.append_nil]
    exact .refl raw
  | cons b tail ih =>
    obtain ⟨hb, htail⟩ := List.forall_mem_cons.mp htail
    have hone : SaysSame raw (raw ++ [b]) := by
      refine ⟨?_, fun kept => (keeps_concat_iff hb).symm⟩
      unfold IsBlank
      rw [List.forall_mem_append]
      exact ⟨fun h => ⟨h, List.forall_mem_singleton.mpr hb⟩, And.left⟩
    rw [List.append_cons]
    exact hone.trans (ih htail)

/-- The bytes of the line are a text. -/
def IsText (raw : List UInt8) : Prop :=
  ∃ text, encode text = raw

/-- A text is blank, or something is left of it. -/
theorem isText_iff : IsText raw ↔ IsBlank raw ∨ ∃ kept, Keeps raw kept := by
  constructor
  · rintro ⟨line, hline⟩
    by_cases hkept : dropEndWhile isTrailing line.toList = []
    · exact Or.inl (isBlank_iff.mpr ⟨line, hline, hkept⟩)
    · exact Or.inr ⟨_, keeps_iff.mpr ⟨hkept, line, hline, rfl⟩⟩
  · rintro (hblank | ⟨kept, dropped, hraw, _⟩)
    · obtain ⟨line, hline, _⟩ := isBlank_iff.mp hblank
      exact ⟨line, hline⟩
    · exact ⟨_, hraw⟩

theorem SaysSame.isText (h : SaysSame raw raw') : IsText raw ↔ IsText raw' := by
  rw [isText_iff, isText_iff, h.blank]
  simp only [h.keeps]

theorem SaysSame.isField (h : SaysSame raw raw') (hfield : IsField raw key value) :
    IsField raw' key value :=
  ⟨(h.keeps _).mp hfield.1, hfield.2⟩

end HeaderLine

namespace Descriptor

open HeaderLine

variable {bytes bytes' rest rest' raw raw' : List UInt8} {key value : String}
  {good good' : List (List UInt8)} {fields : List (String × String)}

/-! ### Altered line ends -/

/-- **Line ends are altered**: before every newline, carriage returns and spaces are put in, or
none. -/
inductive Padded : List UInt8 → List UInt8 → Prop
  | nil : Padded [] []
  | byte {b : UInt8} {rest rest' : List UInt8} : b ≠ newline → Padded rest rest' →
      Padded (b :: rest) (b :: rest')
  | lineEnd {padding rest rest' : List UInt8} : (∀ b ∈ padding, b = 13 ∨ b = 32) →
      Padded rest rest' → Padded (newline :: rest) (padding ++ newline :: rest')

theorem Padded.append (h : Padded bytes bytes') (hrest : Padded rest rest') :
    Padded (bytes ++ rest) (bytes' ++ rest') := by
  induction h with
  | nil => exact hrest
  | byte hb _ ih => exact .byte hb ih
  | lineEnd hpadding _ ih =>
    rw [List.append_assoc]
    exact .lineEnd hpadding ih

/-- The bytes with a carriage return before every newline. -/
def withReturns (bytes : List UInt8) : List UInt8 :=
  bytes.flatMap fun b => if b = newline then [13, newline] else [b]

/-- Carriage returns are one way to alter line ends. -/
theorem padded_withReturns (bytes : List UInt8) : Padded bytes (withReturns bytes) := by
  induction bytes with
  | nil => exact .nil
  | cons b rest ih =>
    rw [withReturns, List.flatMap_cons]
    split
    · rename_i hb
      rw [hb]
      exact .lineEnd (List.forall_mem_singleton.mpr (Or.inl rfl)) ih
    · rename_i hb
      exact .byte hb ih

/-- A line with its end altered. -/
structure IsPadded (raw raw' : List UInt8) : Prop where
  padded : Padded raw raw'
  saysSame : SaysSame raw raw'

/-- **Line by line**, nothing but the ends of the lines is altered. -/
theorem Padded.lines (h : Padded bytes bytes') :
    List.Forall₂ IsPadded (lines bytes) (lines bytes') := by
  -- a line and its altered form begin with the same bytes, and then there is nothing that counts
  suffices hlines : List.Forall₂ (fun raw raw' => Padded raw raw' ∧ ∃ body tail tail',
      raw = body ++ tail ∧ raw' = body ++ tail' ∧ (∀ b ∈ tail, b = 10 ∨ b = 13 ∨ b = 32) ∧
        ∀ b ∈ tail', b = 10 ∨ b = 13 ∨ b = 32) (Descriptor.lines bytes) (Descriptor.lines bytes') by
    refine hlines.imp ?_
    rintro raw raw' ⟨hpadded, body, tail, tail', rfl, rfl, htail, htail'⟩
    exact ⟨hpadded, (saysSame_append htail).symm.trans (saysSame_append htail')⟩
  induction h with
  | nil => exact .nil
  | @byte b rest rest' hb _ ih =>
    rw [Descriptor.lines, Descriptor.lines, if_neg hb, if_neg hb]
    generalize Descriptor.lines rest = rows at ih ⊢
    generalize Descriptor.lines rest' = rows' at ih ⊢
    cases ih with
    | nil =>
      exact .cons ⟨.byte hb .nil, [b], [], [], rfl, rfl, List.forall_mem_nil _,
        List.forall_mem_nil _⟩ .nil
    | cons hfirst hothers =>
      obtain ⟨hpadded, body, tail, tail', hraw, hraw', htail, htail'⟩ := hfirst
      exact .cons ⟨.byte hb hpadded, b :: body, tail, tail', congrArg (b :: ·) hraw,
        congrArg (b :: ·) hraw', htail, htail'⟩ hothers
  | @lineEnd padding rest rest' hpadding _ ih =>
    have hno : newline ∉ padding := by
      intro hmem
      rcases hpadding _ hmem with h | h <;> cases h
    rw [Descriptor.lines, if_pos rfl, lines_append hno]
    refine .cons ⟨.lineEnd hpadding .nil, [], _, _, rfl, rfl, ?_, ?_⟩ ih
    · exact List.forall_mem_singleton.mpr (Or.inl rfl)
    · exact List.forall_mem_append.mpr
        ⟨fun b hb => Or.inr (hpadding b hb), List.forall_mem_singleton.mpr (Or.inl rfl)⟩

/-! ### What altered bytes amount to -/

/-- Headers are headers with altered ends. -/
theorem Headers.altered (h : Headers good fields) (hlines : List.Forall₂ IsPadded good good') :
    Headers good' fields := by
  induction h generalizing good' with
  | nil =>
    cases hlines
    exact .nil
  | cons hheader _ ih =>
    cases hlines with
    | cons hfirst hothers =>
      exact .cons ⟨hfirst.saysSame.isField hheader.1, hheader.2⟩ (ih hothers)

/-- Where a row of lines has one, a row of altered lines has its altered form. -/
theorem exists_altered {rows rows' after : List (List UInt8)}
    (h : List.Forall₂ IsPadded rows rows') (hrows : rows = good ++ raw :: after) :
    ∃ good' raw' after', rows' = good' ++ raw' :: after' ∧ good'.length = good.length ∧
      List.Forall₂ IsPadded good good' ∧ IsPadded raw raw' ∧
      List.Forall₂ IsPadded after after' := by
  subst hrows
  induction good generalizing rows' with
  | nil =>
    cases h with
    | cons hfirst hothers => exact ⟨[], _, _, rfl, rfl, .nil, hfirst, hothers⟩
  | cons first good ih =>
    cases h with
    | cons hfirst hothers =>
      obtain ⟨good', raw', after', rfl, hlength, hgood, hrest⟩ := ih hothers
      exact ⟨_ :: good', raw', after', rfl, congrArg (· + 1) hlength, .cons hfirst hgood, hrest⟩

theorem padded_flatten {rows rows' : List (List UInt8)} (h : List.Forall₂ IsPadded rows rows') :
    Padded rows.flatten rows'.flatten := by
  induction h with
  | nil => exact .nil
  | cons hfirst _ ih => exact hfirst.padded.append ih

/-- **Two readings agree**: the descriptor is the same, and what comes after it differs in line ends
only; or the error is the same, number included; or at the line of the same number it is said that
neither is a text, and each is quoted as it is. -/
inductive Agrees (bytes bytes' : List UInt8) :
    Except DescriptorError (Descriptor × List UInt8) →
    Except DescriptorError (Descriptor × List UInt8) → Prop
  | descriptor {d : Descriptor} {rest rest' : List UInt8} : Padded rest rest' →
      Agrees bytes bytes' (.ok (d, rest)) (.ok (d, rest'))
  | error (e : DescriptorError) : Agrees bytes bytes' (.error e) (.error e)
  | notText {n : Nat} {raw raw' : List UInt8} : (lines bytes)[n]? = some raw →
      (lines bytes')[n]? = some raw' → ¬ IsText raw → ¬ IsText raw' →
      Agrees bytes bytes' (.error (.malformedLine (n + 1) (decodeLossy raw)))
        (.error (.malformedLine (n + 1) (decodeLossy raw')))

/-- **Descriptors that differ in their line ends are read alike.**

Put any carriage returns and spaces before the newlines, before each of them others: the descriptor
is the same, and so is the error with its line number, except that a line that is no text is quoted
with what was put in. -/
theorem reads_line_ends_alike (h : Padded bytes bytes') :
    Agrees bytes bytes' (read bytes) (read bytes') := by
  have hlines := h.lines
  obtain ⟨result, hamounts⟩ := exists_amounts bytes
  rw [hamounts.read]
  have hsection {good : List (List UInt8)} {blank rest : List UInt8}
      {fields : List (String × String)} (hsection : HasSection bytes good fields blank rest) :
      ∃ good' blank' rest', HasSection bytes' good' fields blank' rest' ∧ Padded rest rest' := by
    obtain ⟨hgood, hblank, after, hrows, rfl⟩ := hsection
    obtain ⟨good', blank', after', hrows', _, hgood', hblank', hafter⟩ :=
      exists_altered hlines hrows
    exact ⟨good', blank', _, ⟨hgood.altered hgood', hblank'.saysSame.blank.mp hblank, after',
      hrows', rfl⟩, padded_flatten hafter⟩
  cases hamounts with
  | whole hwhole hversion hall =>
    obtain ⟨good', blank', rest', hwhole', hrest⟩ := hsection hwhole
    rw [(Amounts.whole hwhole' hversion hall).read]
    exact .descriptor hrest
  | legacy hwhole hversion =>
    obtain ⟨good', blank', rest', hwhole', _⟩ := hsection hwhole
    rw [(Amounts.legacy hwhole' hversion).read]
    exact .error _
  | @offence good after fields bad error hrows hgood hbad =>
    obtain ⟨good', bad', after', hrows', hlength, hgood', hsame, _⟩ := exists_altered hlines hrows
    have hread {error : DescriptorError} (hbad' : Offends (good.length + 1) bad' error) :
        read bytes' = .error error :=
      (Amounts.offence hrows' (hgood.altered hgood') (hlength ▸ hbad')).read
    cases hbad with
    | uncounted hfield hcounted hno =>
      rw [hread (.uncounted (hsame.saysSame.isField hfield) hcounted hno)]
      exact .error _
    | malformed hbad =>
      cases hbad with
      | noSeparator hkeeps hno =>
        rw [hread (.malformed (.noSeparator ((hsame.saysSame.keeps _).mp hkeeps) hno))]
        exact .error _
      | notText hno =>
        have hbad : ¬ IsText bad := fun ⟨text, htext⟩ => hno text htext
        have hbad' := mt hsame.saysSame.isText.mpr hbad
        rw [hread (.malformed (.notText fun text htext => hbad' ⟨text, htext⟩))]
        refine .notText ?_ ?_ hbad hbad'
        · rw [hrows, List.getElem?_append_right (Nat.le_refl _), Nat.sub_self]
          rfl
        · rw [hrows', ← hlength, List.getElem?_append_right (Nat.le_refl _), Nat.sub_self]
          rfl
  | endless hgood =>
    rw [(Amounts.endless (hgood.altered hlines)).read]
    exact .error _

/-- A descriptor with binary data behind it is read alike with carriage returns. -/
theorem reads_line_ends_alike_returns :
    ∃ bytes d rest, Padded bytes (withReturns bytes) ∧ read bytes = .ok (d, [0xFF, newline]) ∧
      read (withReturns bytes) = .ok (d, rest) ∧ Padded [0xFF, newline] rest ∧
      d.length = .ok 7 ∧ d.urls = ["a"] := by
  have hplain : ∀ field ∈ [("Length", "7"), ("URL", "a")], IsPlain field.1 field.2 :=
    List.forall_mem_cons.mpr ⟨isPlain_ofList (by decide), List.forall_mem_singleton.mpr
      (isPlain_ofList (by decide))⟩
  have hall : empty.insertAll [("Length", "7"), ("URL", "a")] =
      .ok ⟨[("Length", .integer 7), ("URL", .text "a")], ["a"]⟩ := rfl
  have hread := read_writtenAll hplain hall (by decide) [0xFF, newline]
  have hpadded := padded_withReturns (writtenAll [("Length", "7"), ("URL", "a")] [0xFF, newline])
  have hagrees := reads_line_ends_alike hpadded
  rw [hread] at hagrees
  generalize hread' : read (withReturns _) = result at hagrees
  cases hagrees with
  | descriptor hrest => exact ⟨_, _, _, hpadded, hread, hread', hrest, rfl, rfl⟩

end Descriptor

end RangeSync
