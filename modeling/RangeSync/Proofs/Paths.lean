import RangeSync.Proofs.Results
import RangeSync.Url.Reader

/-!
# What the path of a URL holds

A part of a URL is encoded before it is put into the URL, and what has been encoded needs no
encoding again (`RangeSync.Url.Part.encode_encode`). For a path this means that nothing in it could
end it: however a URL is read, its path has no question mark and no number sign
(`RangeSync.Url.endsPath_of_mem_path`), so a path that is put behind another text is all read as a
path. In a path that is cut at slashes there are no blanks either
(`RangeSync.Url.isInPath_of_mem_readPath`).
-/

namespace RangeSync.Url

open Text

variable {c : Char} {s : List Char} {part : Part}

/-! ### Encoded text -/

/-- The character stands in a part as it is. -/
def Part.Keeps (part : Part) (c : Char) : Prop :=
  0x20 ≤ c.toNat ∧ c.toNat < 0x7F ∧ c ∉ part.encoded

instance : Decidable (part.Keeps c) :=
  inferInstanceAs (Decidable (_ ∧ _ ∧ _))

theorem Part.Keeps.encodeChar (h : part.Keeps c) : part.encodeChar c = [c] := by
  obtain ⟨hlow, hhigh, hset⟩ := h
  refine if_neg ?_
  simp only [Bool.or_eq_true, decide_eq_true_eq, List.contains_iff_mem]
  rintro ((h | h) | h)
  · omega
  · omega
  · exact hset h

theorem Part.Keeps.encode (h : ∀ c ∈ s, part.Keeps c) : part.encode s = s := by
  have hchars : s.map part.encodeChar = s.map ([·]) :=
    List.map_congr_left fun c hc => (h c hc).encodeChar
  rw [Part.encode, List.flatMap_def, hchars, ← List.flatMap_def, List.flatMap_singleton']

/-- What a byte is written with. -/
theorem mem_escapedByte {b : UInt8} (h : c ∈ escapedByte b) :
    c = '%' ∨ ∃ v < 16, c = (hexDigit v).toUpper := by
  have hlt := b.toNat_lt
  rcases List.mem_cons.mp h with rfl | h
  · exact .inl rfl
  · right
    rcases List.mem_cons.mp h with rfl | h
    · exact ⟨_, by omega, rfl⟩
    · exact ⟨_, by omega, List.mem_singleton.mp h⟩

/-- **What has been encoded stands as it is.** The names of file paths are left out, since there a
percent sign is encoded as well. -/
theorem Part.keeps_of_mem_encode (hpart : part ≠ .segment) (h : c ∈ part.encode s) :
    part.Keeps c := by
  obtain ⟨a, -, hc⟩ := List.mem_flatMap.mp h
  unfold Part.encodeChar at hc
  split at hc
  · obtain ⟨b, -, hc⟩ := List.mem_flatMap.mp hc
    rcases mem_escapedByte hc with rfl | ⟨v, hv, rfl⟩
    · cases part <;> first | exact absurd rfl hpart | decide
    · have hdigit : ∀ v < 16, part.Keeps (hexDigit v).toUpper := by
        cases part <;> first | exact absurd rfl hpart | decide
      exact hdigit v hv
  · rename_i hkeeps
    rw [List.mem_singleton] at hc
    simp only [Bool.or_eq_true, decide_eq_true_eq, List.contains_iff_mem, not_or, Nat.not_lt,
      Nat.not_le] at hkeeps
    exact hc ▸ ⟨hkeeps.1.1, hkeeps.1.2, hkeeps.2⟩

theorem Part.encode_encode (hpart : part ≠ .segment) (s : List Char) :
    part.encode (part.encode s) = part.encode s :=
  Keeps.encode fun _ hc => keeps_of_mem_encode hpart hc

/-! ### Paths that are cut at slashes -/

/-- The character stands in a path that is cut at slashes: it is no blank, and does not end the
path. -/
def IsInPath (c : Char) : Prop :=
  0x20 < c.toNat ∧ endsPath c = false

instance : Decidable (IsInPath c) :=
  inferInstanceAs (Decidable (_ ∧ _))

theorem isInPath_of_mem_encode (h : c ∈ Part.path.encode s) : IsInPath c := by
  obtain ⟨hlow, -, hset⟩ := Part.keeps_of_mem_encode (by decide) h
  have hne (d : Char) (hd : d ∈ pathSet) : c ≠ d := fun hc => hset (hc ▸ hd)
  refine ⟨?_, ?_⟩
  · have hspace : c.toNat ≠ ' '.toNat := fun hc => hne ' ' (by decide) (Char.toNat_inj.mp hc)
    have hvalue : ' '.toNat = 0x20 := rfl
    omega
  · simp only [endsPath, Bool.or_eq_false_iff, beq_eq_false_iff_ne]
    exact ⟨hne '?' (by decide), hne '#' (by decide)⟩

/-- All segments that have been read stand in a path. -/
def Walk.IsClean (w : Walk) : Prop :=
  ∀ s ∈ w.done, ∀ c ∈ s, IsInPath c

theorem mem_of_mem_shortened {done : List (List Char)} (h : s ∈ shortened done) : s ∈ done := by
  cases done with
  | nil => exact h
  | cons last before =>
    simp only [shortened] at h
    split at h
    · exact h
    · exact List.mem_cons_of_mem _ h

/-- The drive and the rest are made of the segment and a colon. -/
theorem mem_of_driveAndMore? {drive more : List Char} (h : driveAndMore? s = some (drive, more)) :
    (∀ c ∈ drive, c ∈ s ∨ c = ':') ∧ ∀ c ∈ more, c ∈ s := by
  unfold driveAndMore? at h
  split at h
  · split at h
    · cases h
      simp +contextual
    · cases h
  · cases h

/-- One more segment keeps the path clean, whatever it does to the ones before it. -/
theorem Walk.IsClean.add {w : Walk} (hw : w.IsClean) (isFile isLast : Bool)
    (hs : ∀ c ∈ s, IsInPath c) : (w.add isFile isLast s).IsClean := by
  have hshort : ∀ t ∈ shortened w.done, ∀ c ∈ t, IsInPath c :=
    fun t ht => hw t (mem_of_mem_shortened ht)
  have hnil : ∀ c ∈ ([] : List Char), IsInPath c := fun c hc => absurd hc List.not_mem_nil
  have hcolon : IsInPath ':' := by decide
  unfold Walk.add
  dsimp only
  split
  · rename_i drive more hdrive
    split at hdrive
    · obtain ⟨hd, hm⟩ := mem_of_driveAndMore? hdrive
      refine List.forall_mem_cons.mpr ⟨fun c hc => hs c (hm c hc), ?_⟩
      refine List.forall_mem_cons.mpr ⟨fun c hc => ?_, hw⟩
      rcases hd c hc with hc | rfl
      · exact hs c hc
      · exact hcolon
    · cases hdrive
  · split
    · split
      · exact List.forall_mem_cons.mpr ⟨hnil, hshort⟩
      · exact hshort
    · split
      · split
        · exact List.forall_mem_cons.mpr ⟨hnil, hw⟩
        · exact hw
      · split
        · refine List.forall_mem_cons.mpr ⟨?_, hw⟩
          exact List.forall_mem_cons.mpr
            ⟨hs _ List.mem_cons_self, List.forall_mem_singleton.mpr hcolon⟩
        · exact List.forall_mem_cons.mpr ⟨hs, hw⟩

theorem Walk.IsClean.addAll {w : Walk} (hw : w.IsClean) (isFile : Bool)
    {segments : List (List Char)} (h : ∀ s ∈ segments, ∀ c ∈ s, IsInPath c) :
    (w.addAll isFile segments).IsClean := by
  induction segments generalizing w with
  | nil => exact hw
  | cons s rest ih =>
    rw [List.forall_mem_cons] at h
    cases rest with
    | nil => exact hw.add isFile true h.1
    | cons next more => exact ih (hw.add isFile false h.1) h.2

/-- **A path that was read holds nothing that could end it**, and no blanks. -/
theorem isInPath_of_mem_readPath {isSpecial isFile : Bool}
    (h : c ∈ (readPath isSpecial isFile s).1) : IsInPath c := by
  have hslash : IsInPath '/' := by decide
  have hclean : ∀ parts : List (List Char),
      ((Walk.mk [] false).addAll isFile (parts.map Part.path.encode)).IsClean := by
    intro parts
    refine Walk.IsClean.addAll (fun t ht => absurd ht List.not_mem_nil) isFile fun t ht c hc => ?_
    obtain ⟨part, -, rfl⟩ := List.mem_map.mp ht
    exact isInPath_of_mem_encode hc
  have hjoined {w : Walk} (hw : w.IsClean) : ∀ c ∈ w.path isFile, IsInPath c := by
    have hwhole : ∀ c ∈ joined '/' w.done.reverse, IsInPath c := by
      intro c hc
      rcases mem_joined hc with rfl | ⟨t, ht, hc⟩
      · exact hslash
      · exact hw t (List.mem_reverse.mp ht) c hc
    refine List.forall_mem_cons.mpr ⟨hslash, fun c hc => hwhole c ?_⟩
    split at hc
    · exact (List.dropWhile_sublist _).mem hc
    · exact hc
  exact hjoined (hclean _) c h

/-! ### Paths of any URL -/

variable {text : String} {u : Url} {scheme : String}

theorem withPath_path {isSpecial : Bool} (h : c ∈ (withPath u isSpecial s).path.toList) :
    endsPath c = false := by
  rw [withPath] at h
  simp only [String.toList_ofList] at h
  split at h
  · exact absurd h List.not_mem_nil
  · exact (isInPath_of_mem_readPath h).2

theorem readAuthority_path {kind : Kind} (h : readAuthority scheme kind s = .ok u) :
    ∃ v rest, u = withPath v kind.isSpecial rest ∧ v.scheme = scheme := by
  obtain ⟨⟨username, password, s₁⟩, -, h⟩ := bind_eq_ok_iff.mp h
  dsimp only at h
  split at h
  · split at h
    · cases h
    · cases h
      exact ⟨_, _, rfl, rfl⟩
  · -- The two kinds of hosts are read by different functions.
    split at h
    all_goals
      obtain ⟨host, -, h⟩ := bind_eq_ok_iff.mp h
      obtain ⟨⟨port, s₃⟩, -, h⟩ := bind_eq_ok_iff.mp h
      cases h
      exact ⟨_, _, rfl, rfl⟩

theorem readFile_path (h : readFile s = .ok u) : ∃ host rest, u = fileUrl host rest := by
  unfold readFile at h
  split at h
  · split at h
    · dsimp only at h
      split at h
      · cases h
        exact ⟨_, _, rfl⟩
      · split at h
        · cases h
          exact ⟨_, _, rfl⟩
        · cases h
    · cases h
      exact ⟨_, _, rfl⟩
  · cases h
    exact ⟨_, _, rfl⟩

/-- A path that is kept as it is has been cut where it ends. -/
theorem endsPath_of_mem_opaque (h : c ∈ Part.opaquePart.encode (s.takeWhile (!endsPath ·))) :
    endsPath c = false := by
  obtain ⟨a, ha, hc⟩ := List.mem_flatMap.mp h
  have hends : endsPath a = false := by
    simpa using List.all_eq_true.mp List.all_takeWhile a ha
  unfold Part.encodeChar at hc
  split at hc
  · obtain ⟨b, -, hc⟩ := List.mem_flatMap.mp hc
    rcases mem_escapedByte hc with rfl | ⟨v, hv, rfl⟩
    · decide
    · have hdigit : ∀ v < 16, endsPath (hexDigit v).toUpper = false := by decide
      exact hdigit v hv
  · rw [List.mem_singleton] at hc
    exact hc ▸ hends

theorem readOther_path (h : readOther scheme s = .ok u) (hc : c ∈ u.path.toList) :
    endsPath c = false := by
  unfold readOther at h
  split at h
  · obtain ⟨v, rest, rfl, -⟩ := readAuthority_path h
    exact withPath_path hc
  · cases h
    exact withPath_path hc
  · cases h
    simp only [String.toList_ofList] at hc
    exact endsPath_of_mem_opaque hc

/-- **The path of a URL that was read holds nothing that could end it.** -/
theorem endsPath_of_mem_path (h : read text = .ok u) (hc : c ∈ u.path.toList) :
    endsPath c = false := by
  unfold read at h
  split at h
  · cases h
  · split at h
    · obtain ⟨v, rest, rfl, -⟩ := readAuthority_path h
      exact withPath_path hc
    · obtain ⟨host, rest, rfl⟩ := readFile_path h
      simp only [fileUrl, String.toList_ofList] at hc
      exact (isInPath_of_mem_readPath hc).2
    · exact readOther_path h hc

end RangeSync.Url
