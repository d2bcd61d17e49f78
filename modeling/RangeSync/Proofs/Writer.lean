import RangeSync.Output.Writer
import RangeSync.Proofs.Bytes
import RangeSync.Proofs.Disk

/-!
# What operations on an output do

An output is an open file or a spool, but what is said about it is the same for both: it holds
bytes, it has a position, and it has a site in the file tree or none. The site of an open file is
its place; a spool has none, and so working on it leaves all trees as they are.

`RangeSync.Writer.Carries` is what every operation on an output keeps: it may edit the file at the
site, and nothing else. That an output which replaces the seed never touches the seed before it is
committed is this relation for an output without a site.
-/

namespace RangeSync

open Act Disk

/-! ### Spools -/

namespace Spool

variable {s : Spool} {d : Disk} {α : Type}

/-- A spool holds these bytes and is at this position, and the disk was left alone. -/
structure HasAt (d : Disk) (bytes : List UInt8) (position : Nat) (t : Spool × Disk) : Prop where
  bytes : t.1.bytes = bytes
  position : t.1.position = position
  kept : d.Kept t.2

theorem HasAt.refl (s : Spool) (d : Disk) : HasAt d s.bytes s.position (s, d) :=
  ⟨rfl, rfl, Kept.refl d⟩

/-- Trying an operation on files. -/
theorem ends_attempt (s : Spool) (d : Disk) :
    (onFiles Disk.attempt).Ends (s, d) (fun _ t => t.1 = s ∧ d.Kept t.2)
      fun kind t => t.1 = s ∧ d.Kept t.2 ∧ d.Refuses kind := by
  rw [onFiles, ends_within]
  exact (Disk.ends_attempt d).mono (fun _ _ hk => ⟨rfl, hk⟩) fun _ _ ⟨hk, hr⟩ => ⟨rfl, hk, hr⟩

/-- Trying an operation on files if the bytes are in one. -/
theorem ends_attempt_onDisk (s : Spool) (d : Disk) :
    (if s.onDisk then onFiles Disk.attempt else pure () : SpoolAct Unit).Ends (s, d)
      (fun _ t => t.1 = s ∧ d.Kept t.2) fun kind t => t.1 = s ∧ d.Kept t.2 ∧ d.Refuses kind := by
  split
  · exact ends_attempt s d
  · exact ⟨rfl, Kept.refl d⟩

theorem ends_roll (s : Spool) (d : Disk) :
    roll.Ends (s, d) (fun _ t => HasAt d s.bytes s.position t)
      fun kind t => HasAt d s.bytes s.position t ∧
        (d.Refuses kind ∨ fileLimit < s.position) := by
  unfold roll
  rw [ends_bind, ends_get]
  dsimp only
  split
  · rw [ends_bind]
    refine (ends_attempt s d).mono ?_ ?_
    · rintro _ ⟨_, d₁⟩ ⟨rfl, hk⟩
      rw [ends_bind]
      refine (ends_attempt _ d₁).mono ?_ ?_
      · rintro _ ⟨_, d₂⟩ ⟨rfl, hk'⟩
        split
        · rename_i hlong
          exact ⟨⟨rfl, rfl, hk.trans hk'⟩, Or.inr hlong⟩
        · exact ⟨rfl, rfl, hk.trans hk'⟩
      · rintro kind ⟨_, d₂⟩ ⟨rfl, hk', hr⟩
        exact ⟨⟨rfl, rfl, hk.trans hk'⟩, Or.inl (refuses_congr hk.refuses hr)⟩
    · rintro kind ⟨_, d₁⟩ ⟨rfl, hk, hr⟩
      exact ⟨⟨rfl, rfl, hk⟩, Or.inl hr⟩
  · exact HasAt.refl s d

/-- The same if the bytes have to be moved only in some case. -/
theorem ends_roll_if {p : Prop} [Decidable p] (s : Spool) (d : Disk) :
    (if p then roll else pure () : SpoolAct Unit).Ends (s, d)
      (fun _ t => HasAt d s.bytes s.position t)
      fun kind t => HasAt d s.bytes s.position t ∧
        (d.Refuses kind ∨ fileLimit < s.position) := by
  split
  · exact ends_roll s d
  · exact HasAt.refl s d

theorem ends_setLength (s : Spool) (d : Disk) (length : Nat) :
    (setLength length).Ends (s, d) (fun _ t => HasAt d (resized s.bytes length) s.position t)
      fun kind t => HasAt d s.bytes s.position t ∧
        (d.Refuses kind ∨ fileLimit < s.position ∨ fileLimit < length) := by
  unfold setLength
  rw [ends_bind, ends_get]
  dsimp only
  rw [ends_when]
  refine (ends_roll_if s d).mono ?_ ?_
  · rintro _ ⟨s₁, d₁⟩ ⟨hb, hp, hk⟩
    rw [ends_bind, ends_get]
    dsimp only at hb hp hk ⊢
    split
    · rw [ends_bind]
      refine (ends_attempt s₁ d₁).mono ?_ ?_
      · rintro _ ⟨_, d₂⟩ ⟨rfl, hk'⟩
        split
        · rename_i hlong
          exact ⟨⟨hb, hp, hk.trans hk'⟩, Or.inr (Or.inr hlong)⟩
        · exact ⟨by rw [← hb], hp, (hk.trans hk').recorded _⟩
      · rintro kind ⟨_, d₂⟩ ⟨rfl, hk', hr⟩
        exact ⟨⟨hb, hp, hk.trans hk'⟩, Or.inl (refuses_congr hk.refuses hr)⟩
    · exact ⟨by rw [← hb], hp, hk.recorded _⟩
  · rintro kind t ⟨h, hr⟩
    exact ⟨h, hr.imp_right Or.inl⟩

theorem ends_write (s : Spool) (d : Disk) (data : List UInt8) :
    (write data).Ends (s, d)
      (fun _ t => HasAt d (overlay s.bytes s.position data) (s.position + data.length) t)
      fun kind t => HasAt d s.bytes s.position t ∧
        (d.Refuses kind ∨ fileLimit < s.position) := by
  unfold write
  split
  · rename_i hempty
    rw [List.isEmpty_iff.mp hempty]
    exact HasAt.refl s d
  · rw [ends_bind, ends_get]
    dsimp only
    rw [ends_when]
    refine (ends_roll_if s d).mono ?_ fun _ _ h => h
    rintro _ ⟨s₁, d₁⟩ ⟨hb, hp, hk⟩
    rw [ends_bind, ends_get]
    dsimp only at hb hp hk ⊢
    rw [ends_when]
    refine (ends_attempt_onDisk s₁ d₁).mono ?_ ?_
    · rintro _ ⟨_, d₂⟩ ⟨rfl, hk'⟩
      exact ⟨by rw [← hb, ← hp], by rw [← hp], (hk.trans hk').recorded _⟩
    · rintro kind ⟨_, d₂⟩ ⟨rfl, hk', hr⟩
      exact ⟨⟨hb, hp, hk.trans hk'⟩, Or.inl (refuses_congr hk.refuses hr)⟩

theorem fileLimit_le_greatest (s : Spool) : fileLimit ≤ s.greatest := by
  unfold greatest
  split <;> decide

/-- A move that leads nowhere in a spool leads nowhere in a file. -/
theorem within?_none {target : SeekFrom} {position length greatest : Nat}
    (hle : fileLimit ≤ greatest) (h : target.within? position length greatest = none) :
    target.within? position length fileLimit = none := by
  unfold SeekFrom.within? at h ⊢
  dsimp only at h ⊢
  split at h
  · cases h
  · rename_i hout
    refine if_neg fun hin => hout ⟨hin.1, ?_⟩
    have := hin.2
    omega

theorem ends_seek (s : Spool) (d : Disk) (target : SeekFrom) :
    (seek target).Ends (s, d)
      (fun a t => target.target s.position s.bytes.length = a ∧ HasAt d s.bytes a t)
      fun kind t => HasAt d s.bytes s.position t ∧
        (d.Refuses kind ∨ kind = .invalidInput ∧
          target.within? s.position s.bytes.length fileLimit = none) := by
  unfold seek
  rw [ends_bind, ends_get]
  dsimp only
  rw [ends_when]
  refine (ends_attempt_onDisk s d).mono ?_ ?_
  · rintro _ ⟨_, d₁⟩ ⟨rfl, hk⟩
    split
    · rename_i hnone
      exact ⟨⟨rfl, rfl, hk⟩, Or.inr ⟨rfl, within?_none (fileLimit_le_greatest _) hnone⟩⟩
    · rename_i a hsome
      refine ⟨?_, rfl, rfl, hk⟩
      unfold SeekFrom.within? at hsome
      dsimp only at hsome
      split at hsome
      · rename_i hin
        cases hsome
        exact (Int.toNat_of_nonneg hin.1).symm
      · cases hsome
  · rintro kind ⟨_, d₁⟩ ⟨rfl, hk, hr⟩
    exact ⟨⟨rfl, rfl, hk⟩, Or.inl hr⟩

theorem ends_readAll (s : Spool) (d : Disk) :
    readAll.Ends (s, d)
      (fun a t => a = s.bytes.drop s.position ∧
        HasAt d s.bytes (max s.position s.bytes.length) t)
      fun kind t => HasAt d s.bytes s.position t ∧ d.Refuses kind := by
  unfold readAll
  rw [ends_bind, ends_get]
  dsimp only
  rw [ends_when]
  refine (ends_attempt_onDisk s d).mono ?_ ?_
  · rintro _ ⟨_, d₁⟩ ⟨rfl, hk⟩
    exact ⟨rfl, rfl, rfl, hk⟩
  · rintro kind ⟨_, d₁⟩ ⟨rfl, hk, hr⟩
    exact ⟨⟨rfl, rfl, hk⟩, hr⟩

end Spool

/-- The start of the bytes can always be moved to. -/
theorem SeekFrom.within?_start {offset position length greatest : Nat} :
    (SeekFrom.start offset).within? position length greatest = none ↔ greatest < offset := by
  unfold SeekFrom.within? SeekFrom.target
  dsimp only
  split
  · rename_i h
    exact ⟨nofun, fun hlt => absurd h.2 (by omega)⟩
  · rename_i h
    exact ⟨fun _ => Classical.byContradiction fun hle => h ⟨by omega, by omega⟩, fun _ => rfl⟩

/-! ### Outputs -/

namespace Writer

variable {w : Writer} {d : Disk} {s s' s'' : Writer × Disk} {α : Type}

/-- The place of the file that the output is written into; an output in a spool has none. -/
def site (w : Writer) : Option Location :=
  match w.backing with
  | .direct place _ => some place
  | .staged _ => none

/-- The position in the output. -/
def position (w : Writer) : Nat :=
  match w.backing with
  | .direct _ position => position
  | .staged spool => spool.position

/-- The bytes of the output. -/
def bytes (w : Writer) (d : Disk) : List UInt8 :=
  match w.backing with
  | .direct place _ => d.bytesAt place
  | .staged spool => spool.bytes

theorem bytes_of_site {place : Location} (h : w.site = some place) :
    w.bytes d = d.bytesAt place := by
  unfold site at h
  unfold bytes
  split at h
  · cases h
    rfl
  · cases h

/-- The output can be written: at its site, if it has one, there is a file. -/
def IsOpen (w : Writer) (t : Tree) : Prop :=
  ∀ place, w.site = some place →
    ∃ content mode time, t.get? place = some (.file content mode time)

/-- **An output goes on as the same one**: what it is for has not changed, and nothing but the bytes
of the file at its site has changed on the disk, at any time. -/
structure Carries (s s' : Writer × Disk) : Prop where
  path : s'.1.path = s.1.path
  length : s'.1.length = s.1.length
  site : s'.1.site = s.1.site
  disk : Along (Tree.EditOf s.1.site s.2.tree) s.2 s'.2

theorem Carries.refl (s : Writer × Disk) : Carries s s :=
  ⟨rfl, rfl, rfl, Along.refl _ _⟩

theorem Carries.tree (h : Carries s s') : Tree.EditOf s.1.site s.2.tree s'.2.tree :=
  h.disk.tree (Tree.EditOf.refl _ _)

theorem Carries.trans (h : Carries s s') (h' : Carries s' s'') : Carries s s'' := by
  refine ⟨h'.path.trans h.path, h'.length.trans h.length, h'.site.trans h.site, ?_⟩
  refine h.disk.trans (h'.disk.mono fun t ht => h.tree.trans ?_)
  rwa [h.site] at ht

theorem Carries.isOpen (h : Carries s s') (ho : s.1.IsOpen s.2.tree) : s'.1.IsOpen s'.2.tree := by
  intro place hp
  rw [h.site] at hp
  obtain ⟨content, mode, time, hf⟩ := ho place hp
  obtain ⟨content', time', hf'⟩ := h.tree.file place content mode time hp hf
  exact ⟨content', mode, time', hf'⟩

/-- The output goes on, and has these bytes and this position. -/
structure HasAt (s : Writer × Disk) (bytes : List UInt8) (position : Nat)
    (s' : Writer × Disk) : Prop where
  carries : Carries s s'
  bytes : s'.1.bytes s'.2 = bytes
  position : s'.1.position = position

theorem HasAt.refl (w : Writer) (d : Disk) : HasAt (w, d) (w.bytes d) w.position (w, d) :=
  ⟨Carries.refl _, rfl, rfl⟩

theorem Carries.hasAt {bytes : List UInt8} {position : Nat} (h : Carries s s')
    (h' : HasAt s' bytes position s'') : HasAt s bytes position s'' :=
  ⟨h.trans h'.carries, h'.bytes, h'.position⟩

/-- Another row of bytes in a spool. -/
theorem hasAt_of_spool {spool : Spool} (hw : w.backing = .staged spool) {bytes : List UInt8}
    {position : Nat} {t : Spool × Disk} (h : Spool.HasAt d bytes position t) :
    HasAt (w, d) bytes position ({ w with backing := .staged t.1 }, t.2) := by
  refine ⟨⟨rfl, rfl, ?_, h.kept.along⟩, h.bytes, h.position⟩
  simp only [site, hw]

/-- Another position in an open file. -/
theorem hasAt_of_kept {place : Location} {old : Nat} (hw : w.backing = .direct place old)
    (position : Nat) {d' : Disk} (hk : d.Kept d') :
    HasAt (w, d) (w.bytes d) position ({ w with backing := .direct place position }, d') := by
  refine ⟨⟨rfl, rfl, ?_, hk.along⟩, ?_, rfl⟩
  · simp only [site, hw]
  · simp only [bytes, hw, bytesAt, hk.tree]

theorem ends_onFiles {act : FileAct α} {post : α → Writer × Disk → Prop}
    {fail : IoKind → Writer × Disk → Prop} :
    (onFiles act).Ends (w, d) post fail ↔
      act.Ends d (fun a d' => post a (w, d')) fun kind d' => fail kind (w, d') :=
  ends_within

theorem ends_onSpool {spool : Spool} {act : SpoolAct α} {post : α → Writer × Disk → Prop}
    {fail : IoKind → Writer × Disk → Prop} :
    (onSpool spool act).Ends (w, d) post fail ↔
      act.Ends (spool, d) (fun a t => post a ({ w with backing := .staged t.1 }, t.2))
        fun kind t => fail kind ({ w with backing := .staged t.1 }, t.2) :=
  ends_within

/-- **Writing** lays the data over the bytes. -/
theorem ends_write (ho : w.IsOpen d.tree) (data : List UInt8) :
    (write data).Ends (w, d)
      (fun _ s' => HasAt (w, d) (overlay (w.bytes d) w.position data)
        (w.position + data.length) s')
      fun kind s' => HasAt (w, d) (w.bytes d) w.position s' ∧
        (d.Refuses kind ∨ fileLimit < w.position) := by
  unfold write
  rw [ends_bind, ends_get]
  dsimp only
  split
  · -- the bytes are those of an open file, and only its entry changes
    rename_i place position hw
    have hpos : w.position = position := by simp only [Writer.position, hw]
    split
    · rename_i hempty
      rw [List.isEmpty_iff.mp hempty]
      exact HasAt.refl w d
    · rw [ends_bind, ends_onFiles]
      refine (ends_writeAt d place position data).mono ?_ ?_
      · intro _ d' ht
        obtain ⟨content, mode, time, hf⟩ := ho place (by simp only [site, hw])
        have hedit := Tree.get?_edited hf (overlay · position data)
        rw [← ht.tree] at hedit
        refine ⟨⟨rfl, rfl, ?_, ht.along ?_⟩, ?_, ?_⟩
        · simp only [site, hw]
        · simp only [site, hw]
          exact Tree.editOf_edited _ _ _
        · simp only [bytes, hw, hpos]
          rw [bytesAt_eq hedit, bytesAt_eq hf]
        · rw [hpos]
          rfl
      · rintro kind d' ⟨hk, hr⟩
        exact ⟨⟨⟨rfl, rfl, rfl, hk.along⟩, by simp only [bytes, hw, bytesAt, hk.tree], rfl⟩,
          Or.inl hr⟩
  · rename_i spool hw
    rw [ends_onSpool]
    have hb : w.bytes d = spool.bytes := by simp only [bytes, hw]
    have hp : w.position = spool.position := by simp only [Writer.position, hw]
    rw [hb, hp]
    exact (Spool.ends_write spool d data).mono (fun _ _ h => hasAt_of_spool hw h)
      fun _ _ h => ⟨hasAt_of_spool hw h.1, h.2⟩

/-- **Moving the position** leaves the bytes as they are. -/
theorem ends_seek (w : Writer) (d : Disk) (target : SeekFrom) :
    (seek target).Ends (w, d)
      (fun a s' => target.target w.position (w.bytes d).length = a ∧
        HasAt (w, d) (w.bytes d) a s')
      fun kind s' => HasAt (w, d) (w.bytes d) w.position s' ∧
        (d.Refuses kind ∨ kind = .invalidInput ∧
          target.within? w.position (w.bytes d).length fileLimit = none) := by
  unfold seek
  rw [ends_bind, ends_get]
  dsimp only
  split
  · rename_i place position hw
    have hpos : w.position = position := by simp only [Writer.position, hw]
    have hstay (d' : Disk) (hk : d.Kept d') : HasAt (w, d) (w.bytes d) w.position (w, d') :=
      ⟨⟨rfl, rfl, rfl, hk.along⟩, by simp only [bytes, hw, bytesAt, hk.tree], rfl⟩
    rw [ends_bind, ends_onFiles]
    refine (Disk.ends_attempt d).mono ?_ fun _ d' h => ⟨hstay d' h.1, Or.inl h.2⟩
    intro _ d' hk
    have hlen : (content d' place).length = (w.bytes d).length := by
      simp only [content, bytes, hw, bytesAt, hk.tree]
    rw [ends_bind, ends_get]
    dsimp only
    rw [hlen, hpos]
    split
    · rename_i hnone
      exact ⟨hpos ▸ hstay d' hk, Or.inr ⟨rfl, hnone⟩⟩
    · rename_i a hsome
      refine ⟨?_, hasAt_of_kept hw a hk⟩
      unfold SeekFrom.within? at hsome
      dsimp only at hsome
      split at hsome
      · rename_i hin
        cases hsome
        exact (Int.toNat_of_nonneg hin.1).symm
      · cases hsome
  · rename_i spool hw
    rw [ends_onSpool]
    have hb : w.bytes d = spool.bytes := by simp only [bytes, hw]
    have hp : w.position = spool.position := by simp only [Writer.position, hw]
    rw [hb, hp]
    exact (Spool.ends_seek spool d target).mono
      (fun _ _ h => ⟨h.1, hasAt_of_spool hw h.2⟩)
      fun _ _ h => ⟨hasAt_of_spool hw h.1, h.2⟩

theorem ends_seekTo (w : Writer) (d : Disk) (offset : Nat) :
    (seekTo offset).Ends (w, d) (fun _ s' => HasAt (w, d) (w.bytes d) offset s')
      fun kind s' => HasAt (w, d) (w.bytes d) w.position s' ∧
        (d.Refuses kind ∨ fileLimit < offset) := by
  unfold seekTo
  rw [ends_bind]
  refine (ends_seek w d (.start offset)).mono ?_ ?_
  · rintro a s' ⟨ht, h⟩
    obtain rfl : offset = a := Int.ofNat_inj.mp ht
    exact h
  · rintro kind s' ⟨h, hr⟩
    exact ⟨h, hr.imp_right fun hnone => SeekFrom.within?_start.mp hnone.2⟩

/-- **The digest** is that of all bytes, wherever the position is. -/
theorem ends_digest (w : Writer) (d : Disk) :
    digest.Ends (w, d)
      (fun hex s' => hex = Digest.sha1Hex (w.bytes d) ∧
        HasAt (w, d) (w.bytes d) (w.bytes d).length s')
      fun kind s' => (∃ position, HasAt (w, d) (w.bytes d) position s') ∧ d.Refuses kind := by
  unfold digest
  rw [ends_bind]
  refine (ends_seek w d (.start 0)).mono ?_ ?_
  · rintro a ⟨w₁, d₁⟩ ⟨ht, h⟩
    obtain rfl : 0 = a := Int.ofNat_inj.mp ht
    rw [ends_bind, ends_get]
    dsimp only
    have hb := h.bytes
    have hp := h.position
    have hr : d₁.refuses = d.refuses := h.carries.disk.refuses
    split
    · -- an open file is read from the start to the end
      rename_i place position hw
      rw [ends_bind, ends_onFiles]
      refine (Disk.ends_attempt d₁).mono ?_ ?_
      · intro _ d₂ hk
        have hcontent : content d₂ place = w.bytes d := by
          rw [← hb]
          simp only [content, bytes, hw, bytesAt, hk.tree]
        rw [ends_bind, ends_get, ends_bind]
        dsimp only
        rw [hcontent]
        exact ⟨rfl, h.carries.hasAt (hb ▸ hasAt_of_kept hw _ hk)⟩
      · rintro kind d₂ ⟨hk, hrefused⟩
        refine ⟨⟨0, h.carries.trans ⟨rfl, rfl, rfl, hk.along⟩, ?_, hp⟩, refuses_congr hr hrefused⟩
        rw [← hb]
        simp only [bytes, hw, bytesAt, hk.tree]
    · rename_i spool hw
      have hb' : spool.bytes = w.bytes d := by
        rw [← hb]
        simp only [bytes, hw]
      have hp' : spool.position = 0 := by
        rw [← hp]
        simp only [Writer.position, hw]
      rw [ends_bind, ends_onSpool]
      refine (Spool.ends_readAll spool d₁).mono ?_ ?_
      · rintro a t ⟨rfl, ht⟩
        rw [hp', hb', Nat.max_eq_right (Nat.zero_le _)] at *
        exact ⟨rfl, h.carries.hasAt (hasAt_of_spool hw ht)⟩
      · rintro kind t ⟨ht, hrefused⟩
        rw [hp', hb'] at ht
        exact ⟨⟨_, h.carries.hasAt (hasAt_of_spool hw ht)⟩, refuses_congr hr hrefused⟩
  · -- the start can always be reached, so only a refusal is left
    rintro kind s' ⟨h, hr⟩
    refine ⟨⟨_, h⟩, hr.resolve_right fun hnone => ?_⟩
    exact absurd (SeekFrom.within?_start.mp hnone.2) (Nat.not_lt_zero _)

/-- Computing the digest of an open file breaks off where an operation is refused. -/
theorem ends_digest_of_site {place : Location} (h : w.site = some place) (d : Disk) :
    digest.Ends (w, d) (fun _ _ => True) fun kind s' => s'.2.Halted kind := by
  obtain ⟨position, hw⟩ : ∃ position, w.backing = .direct place position := by
    unfold site at h
    split at h
    · rename_i file position hw
      cases h
      exact ⟨position, hw⟩
    · cases h
  unfold digest seek
  rw [ends_bind, ends_bind, ends_get]
  dsimp only
  rw [hw]
  dsimp only
  rw [ends_bind, ends_onFiles]
  refine (Disk.ends_try d).mono ?_ fun _ _ hr => hr.2
  intro _ d₁ _
  rw [ends_bind, ends_get]
  dsimp only
  split
  · rename_i hnone
    exact absurd (SeekFrom.within?_start.mp hnone) (Nat.not_lt_zero _)
  · rw [ends_bind, Writer.place, ends_modify, ends_pure, ends_bind, ends_get]
    dsimp only
    rw [ends_bind, ends_onFiles]
    exact (Disk.ends_try d₁).mono (fun _ _ _ => trivial) fun _ _ hr => hr.2

end Writer
end RangeSync
