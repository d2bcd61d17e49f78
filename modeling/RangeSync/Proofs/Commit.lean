import RangeSync.Proofs.Writer

/-!
# Opening, committing and discarding an output

These are the operations on an output that touch more than its bytes. Opening an output of its own
empties the file that its path leads to. Committing an output that replaces the seed puts a new file
into the place where the path of the seed ends, by way of a temporary file beside it.

**No reader ever finds half of a seed.** Every tree that a commit goes through has all entries that
were there before (`RangeSync.Tree.Keeps`), or it has the whole new file in the place of the old
entry (`RangeSync.Tree.Supplanted`); and a commit that fails leaves no trace
(`RangeSync.Writer.ends_replace`).
-/

namespace RangeSync

open Act Disk

namespace Tree

variable {t t' t'' : Tree} {cwd place : Location} {path : String} {bytes : List UInt8}

/-- **The entry that a path ends at gave way to a file** with these bytes, and every other entry is
as before. The file has the permission bits of the file that the path led to. -/
def Supplanted (t : Tree) (cwd : Location) (path : String) (bytes : List UInt8) (t' : Tree) :
    Prop :=
  ∃ s mode time, t.walk cwd false path = .ok s ∧ s.IsOpen ∧ SameOff s.place t t' ∧
    t'.get? s.place = some (.file bytes mode time) ∧
    ∀ place content old modified,
      t.walk cwd true path = .ok (.taken place (.file content old modified)) → mode = old

theorem Supplanted.congr (h : Same t t') (hs : Supplanted t' cwd path bytes t'') :
    Supplanted t cwd path bytes t'' := by
  obtain ⟨s, mode, time, hw, hopen, hoff, hf, hmode⟩ := hs
  rw [walk_congr h] at hw
  refine ⟨s, mode, time, hw, hopen, fun other ho => (hoff other ho).trans (h other), hf, ?_⟩
  intro place content old modified hold
  exact hmode place content old modified ((walk_congr h).trans hold)

end Tree

namespace Writer

variable {w : Writer} {d : Disk} {path : String} {bytes : List UInt8}

/-! ### Replacing -/

/-- Bytes can be put into the place of the path: there is a folder for the temporary file, and the
path ends in a name. -/
def CanSupplant (d : Disk) (path : String) : Prop :=
  (∃ place, d.tree.walk d.cwd true (Path.parentOrHere path) = .ok (.taken place .folder)) ∧
    d.CanReplace path

/-- Besides the entries of the disk there is a temporary file, as it was all the time. -/
structure Holds (d : Disk) (temporary : Location) (content : List UInt8) (mode : Nat)
    (d' : Disk) : Prop where
  along : Along (Tree.Keeps d.tree) d d'
  beside : Tree.Beside temporary d.tree d'.tree
  file : d'.tree.get? temporary = some (.file content mode none)

variable {temporary : Location} {content content' : List UInt8} {mode mode' : Nat} {d₁ d₂ : Disk}

theorem Holds.kept (h : Holds d temporary content mode d₁) (hk : d₁.Kept d₂) :
    Holds d temporary content mode d₂ :=
  ⟨h.along.trans hk.along, by rw [hk.tree]; exact h.beside, by rw [hk.tree]; exact h.file⟩

theorem Holds.put (h : Holds d temporary content mode d₁)
    (ht : d₁.Turned (d₁.tree.put temporary (.file content' mode' none)) d₂) :
    Holds d temporary content' mode' d₂ := by
  have hb : Tree.Beside temporary d.tree d₂.tree := by
    rw [ht.tree]
    exact h.beside.put _
  refine ⟨h.along.trans (ht.along (ht.tree ▸ hb.keeps)), hb, ?_⟩
  rw [ht.tree]
  exact Tree.get?_put_self _ _ (Tree.ne_nil_of_none h.beside.1)

theorem Holds.canReplace (h : Holds d temporary content mode d₁) (hc : d.CanReplace path) :
    d₁.CanReplace path := by
  obtain ⟨hslash, hname, s, hw, hopen⟩ := hc
  refine ⟨hslash, hname, ?_⟩
  rw [h.along.cwd]
  exact Tree.walk_beside_open h.beside h.file hw hopen

/-- What can be replaced beside a temporary file could be replaced without it. -/
theorem Holds.canReplace_before (h : Holds d temporary content mode d₁)
    (hc : d₁.CanReplace path) : d.CanReplace path := by
  obtain ⟨hslash, hname, s, hw, hopen⟩ := hc
  rw [h.along.cwd] at hw
  obtain ⟨s', hw', _, hopen'⟩ := Tree.walk_before_open h.beside h.file hw hopen
  exact ⟨hslash, hname, s', hw', hopen'⟩

/-- A temporary file that is moved to a path supplants what was there. -/
theorem Holds.supplanted (h : Holds d temporary bytes mode d₁) {s : Spot}
    (hw : d₁.tree.walk d.cwd false path = .ok s) (hs : s.IsOpen)
    (hmode : ∀ place content old modified,
      d.tree.walk d.cwd true path = .ok (.taken place (.file content old modified)) → mode = old) :
    d.tree.Supplanted d.cwd path bytes
      ((d₁.tree.erase temporary).put s.place (.file bytes mode none)) := by
  -- without the temporary file the path ended at the same place
  obtain ⟨s', hw', hplace, hs'⟩ := Tree.walk_before_open h.beside h.file hw hs
  refine ⟨s', mode, none, hw', hs', ?_, ?_, hmode⟩
  · intro other ho
    rw [hplace] at ho
    rw [Tree.get?_put_of_ne _ _ ho, h.beside.same_erase other]
  · rw [hplace]
    exact Tree.get?_put_self _ _ ((Tree.leads_of_walk hw).place_ne_nil hs)

/-- **What a commit does**: every tree on the way has all entries of the first one, or it is the one
in which the path is supplanted. -/
def Commits (d : Disk) (path : String) (bytes : List UInt8) (d' : Disk) : Prop :=
  d.tree.Supplanted d.cwd path bytes d'.tree ∧
    Along (fun t => d.tree.Keeps t ∨ d.tree.Supplanted d.cwd path bytes t) d d'

theorem Commits.of_kept (hk : d.Kept d₁) (h : Commits d₁ path bytes d₂) :
    Commits d path bytes d₂ := by
  rw [Commits, hk.tree, hk.cwd] at h
  exact ⟨h.1, hk.along.trans h.2⟩

theorem Commits.kept (h : Commits d path bytes d₁) (hk : d₁.Kept d₂) : Commits d path bytes d₂ :=
  ⟨hk.tree ▸ h.1, h.2.trans hk.along⟩

theorem CanSupplant.congr (hk : d.Kept d₁) (h : CanSupplant d path) : CanSupplant d₁ path := by
  rwa [CanSupplant, CanReplace, hk.tree, hk.cwd]

/-- The disk went through trees that have all entries, and ends with the same tree. -/
def Spares (d d' : Disk) : Prop :=
  Along d.tree.Keeps d d' ∧ d.tree.Same d'.tree

theorem spares_of_edits (h : Along (Tree.EditOf none d.tree) d d₁) : Spares d d₁ :=
  ⟨h.mono fun _ ht => ht.same.keeps, (h.tree (Tree.EditOf.refl _ _)).same⟩

theorem Spares.refl (d : Disk) : Spares d d :=
  ⟨Along.refl _ d, Tree.Same.refl _⟩

theorem spares_of_kept (h : d.Kept d₁) : Spares d d₁ :=
  ⟨h.along, h.tree ▸ Tree.Same.refl _⟩

/-- A temporary file that is removed again leaves no trace. -/
theorem Holds.spares (h : Holds d temporary content mode d₁)
    (ht : d₁.Turned (d₁.tree.erase temporary) d₂) : Spares d d₂ := by
  have hsame : d.tree.Same d₂.tree := ht.tree ▸ h.beside.same_erase
  exact ⟨h.along.trans (ht.along (ht.tree ▸ hsame.keeps)), hsame⟩

/-- A temporary file is still there if nothing else has left a trace. -/
theorem Holds.of_spares (h : Holds d temporary content mode d₁) (hs : Spares d₁ d₂) :
    Holds d temporary content mode d₂ := by
  refine ⟨h.along.trans (hs.1.mono fun t ht => h.beside.keeps.trans ht), ?_, ?_⟩
  · exact ⟨h.beside.1, fun other ho => (hs.2 other).trans (h.beside.2 other ho)⟩
  · exact (hs.2 temporary).trans h.file

theorem Spares.trans (h : Spares d d₁) (h' : Spares d₁ d₂) : Spares d d₂ := by
  refine ⟨h.1.trans (h'.1.mono fun t ht place e he => ?_), h.2.trans h'.2⟩
  exact ht place e ((h.2 place).trans he)

theorem Spares.commits (h : Spares d d₁) (h' : Commits d₁ path bytes d₂) :
    Commits d path bytes d₂ := by
  have hsup {t : Tree} (ht : d₁.tree.Supplanted d₁.cwd path bytes t) :
      d.tree.Supplanted d.cwd path bytes t := by
    rw [h.1.cwd] at ht
    exact ht.congr h.2
  refine ⟨hsup h'.1, (h.1.mono fun t ht => Or.inl ht).trans (h'.2.mono fun t ht => ?_)⟩
  rcases ht with ht | ht
  · exact Or.inl fun place e he => ht place e ((h.2 place).trans he)
  · exact Or.inr (hsup ht)

theorem CanSupplant.of_spares (h : Spares d d₁) (hc : CanSupplant d path) :
    CanSupplant d₁ path := by
  obtain ⟨⟨place, hw⟩, hslash, hname, s, hs⟩ := hc
  refine ⟨⟨place, ?_⟩, hslash, hname, s, ?_⟩
  · rw [h.1.cwd, Tree.walk_congr h.2]
    exact hw
  · rw [h.1.cwd, Tree.walk_congr h.2]
    exact hs

/-- What can be supplanted where no trace was left could be supplanted before. -/
theorem CanSupplant.before_spares (h : Spares d d₁) (hc : CanSupplant d₁ path) :
    CanSupplant d path := by
  obtain ⟨⟨place, hw⟩, hslash, hname, s, hs⟩ := hc
  rw [h.1.cwd, Tree.walk_congr h.2] at hw hs
  exact ⟨⟨place, hw⟩, hslash, hname, s, hs⟩

/-- The bits are those of the file that the path leads to, if it leads to one. -/
def IsModeAt (d : Disk) (path : String) (mode : Nat) : Prop :=
  ∀ place content old modified,
    d.tree.walk d.cwd true path = .ok (.taken place (.file content old modified)) → mode = old

/-- Moving the temporary file to the path ends the commit. -/
theorem Holds.ends_rename (h : Holds d temporary bytes mode d₁) (hmode : IsModeAt d path mode) :
    (rename temporary path).Ends d₁ (fun _ d' => Commits d path bytes d' ∧ d.CanReplace path)
      fun kind d' => (∃ content mode, Holds d temporary content mode d') ∧
        (d.Refuses kind ∨ ¬ d.CanReplace path) := by
  refine (Disk.ends_rename h.file path).mono ?_ ?_
  · rintro _ d₂ ⟨hc, s, hw, hs, ht⟩
    rw [h.along.cwd] at hw
    have hsup := h.supplanted hw hs hmode
    rw [← ht.tree] at hsup
    refine ⟨⟨hsup, (h.along.mono fun t hk => Or.inl hk).trans ?_⟩, h.canReplace_before hc⟩
    exact ht.along (Or.inr (ht.tree ▸ hsup))
  · rintro kind d₂ ⟨hk, hr | hr⟩
    · exact ⟨⟨_, _, h.kept hk⟩, Or.inl (refuses_congr h.along.refuses hr)⟩
    · exact ⟨⟨_, _, h.kept hk⟩, Or.inr fun hc => hr (h.canReplace hc)⟩

/-- Filling a temporary file and moving it to a path. -/
theorem ends_fillAndRename (h : Holds d temporary [] privateMode d₁) (path : String)
    (bytes : List UInt8) :
    (fillAndRename temporary path bytes).Ends d₁
      (fun _ d' => Commits d path bytes d' ∧ d.CanReplace path)
      fun kind d' => (∃ content mode, Holds d temporary content mode d') ∧
        (d.Refuses kind ∨ ¬ d.CanReplace path) := by
  have hfill : (if !bytes.isEmpty then writeAt temporary 0 bytes else pure ()).Ends d₁
      (fun _ d₂ => Holds d temporary bytes privateMode d₂)
      fun kind d₂ => (∃ content mode, Holds d temporary content mode d₂) ∧ d.Refuses kind := by
    split
    · rename_i hfull
      refine (ends_writeAt d₁ temporary 0 bytes).mono ?_ ?_
      · intro _ d₂ ht
        rw [Tree.edited_eq h.file] at ht
        have hput := h.put ht
        rwa [overlay_of_nil] at hput
      · rintro kind d₂ ⟨hk, hr⟩
        exact ⟨⟨_, _, h.kept hk⟩, refuses_congr h.along.refuses hr⟩
    · rename_i hempty
      have hnil : bytes = [] := by simpa using hempty
      rw [hnil]
      exact h
  unfold fillAndRename
  rw [ends_when]
  refine hfill.mono ?_ fun kind d₂ ⟨hh, hr⟩ => ⟨hh, Or.inl hr⟩
  intro _ d₂ h₂
  rw [ends_bind]
  refine (ends_attempt d₂).mono ?_ fun kind d₃ ⟨hk, hr⟩ =>
    ⟨⟨_, _, h₂.kept hk⟩, Or.inl (refuses_congr h₂.along.refuses hr)⟩
  intro _ d₃ hk
  have h₃ := h₂.kept hk
  -- what the path led to before is still there, so its bits are found
  have hold (place : Location) (content : List UInt8) (old : Nat)
      (modified : Option Time.Instant)
      (hw : d.tree.walk d.cwd true path = .ok (.taken place (.file content old modified))) :
      d₃.tree.walk d₃.cwd true path = .ok (.taken place (.file content old modified)) := by
    rw [h₃.along.cwd]
    exact Tree.walk_keeps h₃.beside.keeps hw
  rw [ends_bind, ends_mode?]
  split
  · rename_i new hsome
    rw [ends_bind]
    refine (ends_setMode h₃.file new).mono ?_ fun kind d₄ ⟨hk, hr⟩ =>
      ⟨⟨_, _, h₃.kept hk⟩, Or.inl (refuses_congr h₃.along.refuses hr)⟩
    intro _ d₄ ht
    refine (h₃.put ht).ends_rename fun place content old modified hw => ?_
    rw [hold place content old modified hw] at hsome
    exact (Option.some.inj hsome).symm
  · -- the path led to no file, so there are no bits to keep
    rename_i hnone
    refine h₃.ends_rename fun place content old modified hw => ?_
    rw [hold place content old modified hw] at hnone
    cases hnone

/-- **Replacing what is at a path**: it succeeds and the path is supplanted, or it fails and leaves
no trace. -/
theorem ends_replace (d : Disk) (path : String) (bytes : List UInt8) :
    (replace path bytes).Ends d (fun _ d' => Commits d path bytes d' ∧ CanSupplant d path)
      fun kind d' => Spares d d' ∧ (d.Refuses kind ∨ ¬ CanSupplant d path) := by
  unfold replace
  rw [ends_bind]
  refine (ends_createTemporary d _).mono ?_ ?_
  · rintro temporary d₁ ⟨hnone, ht, hfolder⟩
    have h : Holds d temporary [] privateMode d₁ := by
      have hb : Tree.Beside temporary d.tree d₁.tree := by
        rw [ht.tree]
        exact ⟨hnone, Tree.sameOff_put _ _ _⟩
      refine ⟨ht.along (ht.tree ▸ hb.keeps), hb, ?_⟩
      rw [ht.tree]
      exact Tree.get?_put_self _ _ (Tree.ne_nil_of_none hnone)
    rw [ends_tryCatch]
    refine (ends_fillAndRename h path bytes).mono (fun _ _ hc => ⟨hc.1, hfolder, hc.2⟩) ?_
    rintro kind d₂ ⟨⟨content, mode, h₂⟩, hr⟩
    -- whatever the temporary file has in it, it is removed
    rw [ends_bind]
    exact ends_dropTemporary fun d₃ ht => ⟨h₂.spares ht, hr.imp_right fun hno hc => hno hc.2⟩
  · rintro kind d₁ ⟨hk, hr⟩
    refine ⟨spares_of_kept hk, hr.imp_right ?_⟩
    rintro hno ⟨⟨place, hw⟩, _⟩
    exact hno place hw

/-! ### Committing -/

/-- A commit of an output of its own changes nothing: it is in its place already. -/
theorem ends_commit_of_site {place : Location} (h : w.site = some place) (d : Disk) :
    commit.Ends (w, d) (fun path s' => path = w.path ∧ s'.1 = w ∧ d.Kept s'.2)
      fun kind s' => s'.1 = w ∧ d.Kept s'.2 ∧ s'.2.Halted kind := by
  unfold commit
  rw [ends_bind, ends_get]
  dsimp only
  split
  · rw [ends_bind, ends_onFiles]
    exact (ends_try d).mono (fun _ _ hk => ⟨rfl, rfl, hk⟩) fun _ _ ⟨hk, hr⟩ => ⟨rfl, hk, hr⟩
  · rename_i spool hw
    simp only [site, hw] at h
    cases h

/-- **A commit of a staged output** puts its bytes into the place of its path, and it succeeds only
where they can be put there. -/
theorem ends_commit_supplants (h : w.site = none) (d : Disk) :
    commit.Ends (w, d)
      (fun path s' => (path = w.path ∧ Commits d w.path (w.bytes d) s'.2) ∧ CanSupplant d w.path)
      fun kind s' => Spares d s'.2 ∧ (d.Refuses kind ∨ ¬ CanSupplant d w.path) := by
  unfold commit
  rw [ends_bind, ends_get]
  dsimp only
  split
  · rename_i place position hw
    simp only [site, hw] at h
    cases h
  · rename_i spool hw
    have hb : w.bytes d = spool.bytes := by simp only [bytes, hw]
    rw [hb, ends_bind, ends_onSpool, ends_bind]
    refine (Spool.ends_seek spool d (.start 0)).mono ?_ ?_
    · rintro a ⟨s₁, d₁⟩ ⟨ht, hs⟩
      obtain rfl : 0 = a := Int.ofNat_inj.mp ht
      refine (Spool.ends_readAll s₁ d₁).mono ?_ ?_
      · rintro bytes ⟨s₂, d₂⟩ ⟨rfl, hs'⟩
        have hk : d.Kept d₂ := hs.kept.trans hs'.kept
        -- the reading starts at the first byte, so it has all of them
        have hall : s₁.bytes.drop s₁.position = spool.bytes := by
          have hb := hs.bytes
          have hp := hs.position
          dsimp only at hb hp
          rw [hb, hp, List.drop_zero]
        rw [ends_bind, ends_onFiles, hall]
        refine (ends_replace d₂ w.path spool.bytes).mono ?_ ?_
        · rintro _ d₃ ⟨hc, hcan⟩
          exact ⟨⟨rfl, hc.of_kept hk⟩, hcan.before_spares (spares_of_kept hk)⟩
        · rintro kind d₃ ⟨hs, hr⟩
          refine ⟨(spares_of_kept hk).trans hs, ?_⟩
          exact hr.imp (refuses_congr hk.refuses) fun hno hc => hno (hc.congr hk)
      · rintro kind ⟨s₂, d₂⟩ ⟨hs', hr⟩
        exact ⟨spares_of_kept (hs.kept.trans hs'.kept), Or.inl (refuses_congr hs.kept.refuses hr)⟩
    · rintro kind ⟨s₁, d₁⟩ ⟨hs, hr | ⟨_, hnone⟩⟩
      · exact ⟨spares_of_kept hs.kept, Or.inl hr⟩
      · exact absurd (SeekFrom.within?_start.mp hnone) (Nat.not_lt_zero _)

theorem ends_commit_of_staged (h : w.site = none) (d : Disk) :
    commit.Ends (w, d)
      (fun path s' => path = w.path ∧ Commits d w.path (w.bytes d) s'.2)
      fun kind s' => Spares d s'.2 ∧ (d.Refuses kind ∨ ¬ CanSupplant d w.path) :=
  (ends_commit_supplants h d).mono (fun _ _ h => h.1) fun _ _ h => h

/-! ### Discarding -/

/-- A staged output is forgotten. -/
theorem discard_of_staged (h : w.site = none) : w.discard = pure () := by
  unfold discard
  split
  · rename_i place position hw
    simp only [site, hw] at h
    cases h
  · rfl

/-- An output of its own is removed by its path. -/
theorem discard_of_site {place : Location} (h : w.site = some place) :
    w.discard = remove w.path := by
  unfold discard
  split
  · rfl
  · rename_i spool hw
    simp only [site, hw] at h
    cases h

/-! ### Opening -/

/-- Opening a staged output gives an empty spool its length. -/
theorem ends_openAt_replaceSeed_iff {d : Disk} {seed : String} {length : UInt64} {limit : Nat}
    {post : Writer → Disk → Prop} {fail : IoKind → Disk → Prop} :
    (openAt .replaceSeed seed length limit).Ends d post fail ↔
      (Spool.setLength length.toNat).Ends (Spool.empty limit, d)
        (fun _ t => post ⟨.staged t.1, seed, length⟩ t.2) fun kind t => fail kind t.2 := by
  unfold openAt Ends
  rw [runOn, ExceptT.run_mk, StateT.run]
  rcases runOn (Spool.setLength length.toNat) (Spool.empty limit, d) with ⟨_ | _, _, _⟩ <;> rfl

/-- A staged output starts with zeros, and the disk is left alone. -/
theorem ends_openAt_replaceSeed (d : Disk) (seed : String) (length : UInt64) (limit : Nat) :
    (openAt .replaceSeed seed length limit).Ends d
      (fun w d' => d.Kept d' ∧ w.site = none ∧ w.path = seed ∧ w.length = length ∧
        w.position = 0 ∧ w.bytes d' = List.replicate length.toNat 0)
      fun kind d' => d.Kept d' ∧ (d.Refuses kind ∨ fileLimit < length.toNat) := by
  rw [ends_openAt_replaceSeed_iff]
  refine (Spool.ends_setLength (Spool.empty limit) d length.toNat).mono ?_ ?_
  · intro _ t hs
    refine ⟨hs.kept, rfl, rfl, rfl, hs.position, ?_⟩
    rw [← resized_nil]
    exact hs.bytes
  · rintro kind t ⟨hs, hr | hlow | hlong⟩
    · exact ⟨hs.kept, Or.inl hr⟩
    · exact absurd hlow (Nat.not_lt_zero _)
    · exact ⟨hs.kept, Or.inr hlong⟩

/-- **An output of its own starts with zeros**, in the file that its path leads to. If the length
cannot be set, the file stays there, empty. -/
theorem ends_openAt_file (d : Disk) (path seed : String) (length : UInt64) (limit : Nat) :
    (openAt (.file path) seed length limit).Ends d
      (fun w d' => ∃ s, d.tree.walk d.cwd true path = .ok s ∧ s.IsOpen ∧
        length.toNat ≤ fileLimit ∧ w = ⟨.direct s.place 0, path, length⟩ ∧
        d'.tree.get? s.place =
          some (.file (List.replicate length.toNat 0) (modeFor s) none) ∧
        Along (Tree.SameOff s.place d.tree) d d')
      fun kind d' =>
        d.Kept d' ∧ (d.Refuses kind ∨ ¬ d.CanCreate path) ∨
          ∃ s, d.tree.walk d.cwd true path = .ok s ∧ s.IsOpen ∧
            d'.tree.get? s.place = some (.file [] (modeFor s) none) ∧
            Along (Tree.SameOff s.place d.tree) d d' ∧
            (d'.Halted kind ∨ fileLimit < length.toNat) := by
  unfold openAt
  rw [ends_bind]
  refine (ends_openTruncated d path).mono ?_ fun kind d' h => Or.inl h
  rintro place d₁ ⟨s, hw, hs, rfl, ht⟩
  have hput : d₁.tree.get? s.place = some (.file [] (modeFor s) none) := by
    rw [ht.tree]
    exact Tree.get?_put_self _ _ ((Tree.leads_of_walk hw).place_ne_nil hs)
  have halong : Along (Tree.SameOff s.place d.tree) d d₁ := ht.along (Tree.sameOff_put _ _ _)
  rw [ends_bind]
  refine (ends_setLength d₁ s.place length.toNat).mono ?_ ?_
  · rintro _ d₂ ⟨hlen, ht'⟩
    refine ⟨s, hw, hs, hlen, rfl, ?_, halong.trans (ht'.along ?_)⟩
    · rw [ht'.tree, Tree.get?_edited hput, resized_nil]
    · exact (halong.tree (Tree.SameOff.refl _ _)).trans (Tree.editOf_edited _ _ _).sameOff
  · rintro kind d₂ ⟨hk, hr⟩
    -- the file has been emptied by now
    refine Or.inr ⟨s, hw, hs, ?_, halong.trans hk.along, hr⟩
    rwa [hk.tree]

end Writer
end RangeSync
