import RangeSync.Proofs.Fill

/-!
# How far an output reaches

An output that is a file reaches as far as a file can hold bytes. One that is staged reaches as far,
and it may reach farther: as long as all of it is kept in memory, the positions of files do not
matter to it. So what can be written is not told by one bound for all outputs, and it can change:
bytes that are moved to a file never come back.

`RangeSync.Bench.CanReach` says that an output can be written up to an offset, whichever way it is
kept. **Nothing that ends inside of the reach is refused, and the reach stays what it is**: there is
one lemma for each step of a run that touches the output or the world beside it. And an output that
has been opened reaches to its end (`RangeSync.Job.ends_opening_canReach`), which is where every
range of a plan for it ends at the latest.
-/

namespace RangeSync

open Act Disk

variable {d d' : Disk} {n m : Nat} {data : List UInt8} {offset : Nat}

/-! ### Spools -/

namespace Spool

variable {s : Spool}

/-- So many bytes are all kept in memory. -/
structure Houses (s : Spool) (n : Nat) : Prop where
  inMemory : s.onDisk = false
  limit : n ≤ s.limit
  memory : n ≤ memoryLimit

/-- Bytes that end in memory are written there, and no file is needed. -/
theorem Houses.ends_write (h : s.Houses n) (d : Disk) (hfit : s.position + data.length ≤ n) :
    (write data).Ends (s, d)
      (fun _ t => HasAt d (overlay s.bytes s.position data) (s.position + data.length) t ∧
        t.1.Houses n)
      fun _ _ => False := by
  have hlimit : ¬ s.limit < s.position + data.length := by
    have := h.limit
    omega
  unfold write
  split
  · rename_i hempty
    rw [List.isEmpty_iff.mp hempty]
    exact ⟨HasAt.refl s d, h⟩
  · rw [ends_bind, ends_get]
    dsimp only
    rw [if_neg hlimit, ends_bind, ends_get]
    dsimp only
    rw [h.inMemory, if_neg (by decide), ends_bind, ends_modify]
    exact ⟨⟨rfl, rfl, (Kept.refl d).recorded _⟩, h.inMemory, h.limit, h.memory⟩

/-- The position is moved to any offset in memory. -/
theorem Houses.ends_seek (h : s.Houses n) (d : Disk) (hoffset : offset ≤ n) :
    (seek (.start offset)).Ends (s, d) (fun _ t => HasAt d s.bytes offset t ∧ t.1.Houses n)
      fun _ _ => False := by
  have hgreatest : offset ≤ s.greatest := by
    rw [greatest, h.inMemory]
    exact Nat.le_trans hoffset h.memory
  unfold seek
  rw [ends_bind, ends_get]
  dsimp only
  rw [h.inMemory, if_neg (by decide)]
  have hwithin : (SeekFrom.start offset).within? s.position s.bytes.length s.greatest =
      some offset := by
    rw [SeekFrom.within?, SeekFrom.target]
    exact if_pos ⟨Int.natCast_nonneg _, Int.ofNat_le.mpr hgreatest⟩
  rw [hwithin]
  exact ⟨⟨rfl, rfl, Kept.refl d⟩, h.inMemory, h.limit, h.memory⟩

end Spool

/-! ### Outputs -/

namespace Writer

variable {w : Writer}

/-- **The output reaches to an offset**: a file can hold so many bytes, or they are all kept in
memory. -/
def Reaches (w : Writer) (n : Nat) : Prop :=
  n ≤ fileLimit ∨ ∃ spool, w.backing = .staged spool ∧ spool.Houses n

theorem Reaches.mono (h : w.Reaches n) (hle : m ≤ n) : w.Reaches m := by
  rcases h with h | ⟨spool, hw, h⟩
  · exact Or.inl (Nat.le_trans hle h)
  · exact Or.inr ⟨spool, hw, h.inMemory, Nat.le_trans hle h.limit, Nat.le_trans hle h.memory⟩

/-- **What ends inside of the reach is written.** -/
theorem Reaches.ends_write (h : w.Reaches n) (hobliging : d.IsObliging) (ho : w.IsOpen d.tree)
    (hfit : w.position + data.length ≤ n) :
    (write data).Ends (w, d)
      (fun _ s => HasAt (w, d) (overlay (w.bytes d) w.position data) (w.position + data.length) s ∧
        s.1.Reaches n)
      fun _ _ => False := by
  rcases h with h | ⟨spool, hw, h⟩
  · refine (Writer.ends_write ho data).mono (fun _ _ hs => ⟨hs, Or.inl h⟩) ?_
    rintro kind s ⟨_, hr | hfar⟩
    · exact hobliging kind hr
    · omega
  · have hb : w.bytes d = spool.bytes := by simp only [bytes, hw]
    have hp : w.position = spool.position := by simp only [Writer.position, hw]
    unfold write
    rw [ends_bind, ends_get, hb, hp]
    dsimp only
    rw [hw]
    dsimp only
    rw [ends_onSpool]
    refine (h.ends_write d (hp ▸ hfit)).mono ?_ fun _ _ hno => hno
    rintro _ t ⟨ht, hhouses⟩
    exact ⟨hasAt_of_spool hw ht, Or.inr ⟨t.1, rfl, hhouses⟩⟩

/-- **The position is moved to any offset in reach.** -/
theorem Reaches.ends_seekTo (h : w.Reaches n) (hobliging : d.IsObliging) (hoffset : offset ≤ n) :
    (seekTo offset).Ends (w, d)
      (fun _ s => HasAt (w, d) (w.bytes d) offset s ∧ s.1.Reaches n) fun _ _ => False := by
  rcases h with h | ⟨spool, hw, h⟩
  · refine (Writer.ends_seekTo w d offset).mono (fun _ _ hs => ⟨hs, Or.inl h⟩) ?_
    rintro kind s ⟨_, hr | hfar⟩
    · exact hobliging kind hr
    · omega
  · have hb : w.bytes d = spool.bytes := by simp only [bytes, hw]
    unfold seekTo seek
    rw [ends_bind, ends_bind, ends_get, hb]
    dsimp only
    rw [hw]
    dsimp only
    rw [ends_onSpool]
    refine (h.ends_seek d hoffset).mono ?_ fun _ _ hno => hno
    rintro _ t ⟨ht, hhouses⟩
    exact ⟨hasAt_of_spool hw ht, Or.inr ⟨t.1, rfl, hhouses⟩⟩

/-- A staged output that was opened reaches to its end: if its bytes could not be kept in memory,
they were moved to a file, which can hold them. -/
theorem ends_openAt_replaceSeed_reaches (d : Disk) (seed : String) (length : UInt64)
    (limit : Nat) :
    (openAt .replaceSeed seed length limit).Ends d (fun w _ => w.Reaches length.toNat)
      fun _ _ => True := by
  rw [ends_openAt_replaceSeed_iff]
  unfold Spool.setLength
  rw [ends_bind, ends_get]
  dsimp only
  rw [ends_when]
  have hroll : (if (Spool.empty limit).limit < length.toNat then Spool.roll else pure () :
      SpoolAct Unit).Ends (Spool.empty limit, d)
      (fun _ t => t.1.onDisk = true ∨ t.1.Houses length.toNat) fun _ _ => True := by
    split
    · -- bytes that are moved to a file stay there
      unfold Spool.roll
      rw [ends_bind, ends_get]
      dsimp only [Spool.empty]
      rw [if_pos (by decide), ends_bind]
      refine (Spool.ends_attempt _ d).mono ?_ fun _ _ _ => trivial
      rintro _ ⟨_, d₁⟩ ⟨rfl, _⟩
      rw [ends_bind]
      refine (Spool.ends_attempt _ d₁).mono ?_ fun _ _ _ => trivial
      rintro _ ⟨_, d₂⟩ ⟨rfl, _⟩
      rw [if_neg (Nat.not_lt_zero _)]
      exact Or.inl rfl
    · rename_i hlow
      exact Or.inr ⟨rfl, Nat.not_lt.mp hlow, Nat.le_of_lt_succ length.toNat_lt_size⟩
  refine hroll.mono ?_ fun _ _ _ => trivial
  rintro _ ⟨s, d₁⟩ hs
  rw [ends_bind, ends_get]
  dsimp only at hs ⊢
  rcases hdisk : s.onDisk with _ | _
  · rw [if_neg (by decide)]
    have hhouses : s.Houses length.toNat := hs.resolve_left (by rw [hdisk]; decide)
    exact Or.inr ⟨_, rfl, hdisk, hhouses.limit, hhouses.memory⟩
  · rw [if_pos rfl, ends_bind]
    refine (Spool.ends_attempt s d₁).mono ?_ fun _ _ _ => trivial
    rintro _ ⟨_, d₂⟩ ⟨rfl, _⟩
    split
    · trivial
    · rename_i hshort
      exact Or.inl (Nat.not_lt.mp hshort)

end Writer

/-! ### Benches -/

namespace Bench

variable {b b' : Bench}

/-- **The output can be written up to an offset**: it is open, the disk does what it is told, and
the output reaches so far. -/
structure CanReach (b : Bench) (n : Nat) : Prop where
  isOpen : b.IsOpen
  obliging : b.2.disk.IsObliging
  reaches : b.1.Reaches n

namespace CanReach

theorem mono (h : b.CanReach n) (hle : m ≤ n) : b.CanReach m :=
  ⟨h.isOpen, h.obliging, h.reaches.mono hle⟩

theorem carries (h : b.CanReach n) (hc : Carries b b') (hr : b'.1.Reaches n) : b'.CanReach n :=
  ⟨hc.isOpen h.isOpen, h.obliging.congr hc.refuses, hr⟩

/-- Work on the world that does nothing to the files does not change how far the output reaches. -/
theorem kept (h : b.CanReach n) {world : World} (hk : b.2.disk.Kept world.disk)
    (hserver : world.net.server = b.2.net.server) : CanReach (b.1, world) n :=
  h.carries (carries_of_disk b world hk hserver).carries h.reaches

/-- Writing inside of the reach. -/
theorem ends_write (h : b.CanReach n) (hfit : b.1.position + data.length ≤ n) :
    (onWriter (Writer.write data)).Ends b
      (fun _ b' => b.Wrote data b' ∧ b.OnlyFiles b' ∧ b'.CanReach n) fun _ _ => False := by
  rw [ends_onWriter]
  refine (h.reaches.ends_write h.obliging h.isOpen hfit).mono ?_ fun _ _ hno => hno
  rintro _ s ⟨hs, hr⟩
  have hwrote := hasAt_of_writer hs
  exact ⟨hwrote, rfl, h.carries hwrote.carries hr⟩

/-- Moving the position inside of the reach. -/
theorem ends_seekTo (h : b.CanReach n) (hoffset : offset ≤ n) :
    (onWriter (Writer.seekTo offset)).Ends b
      (fun _ b' => HasAt b b.bytes offset b' ∧ b.OnlyFiles b' ∧ b'.CanReach n)
      fun _ _ => False := by
  rw [ends_onWriter]
  refine (h.reaches.ends_seekTo h.obliging hoffset).mono ?_ fun _ _ hno => hno
  rintro _ s ⟨hs, hr⟩
  have hmoved := hasAt_of_writer hs
  exact ⟨hmoved, rfl, h.carries hmoved.carries hr⟩

/-- Reading what is beside the output. Only a folder cannot be read. -/
theorem ends_readAt (h : b.CanReach n) (file : Location) (position count : Nat) :
    (onWorld (World.onDisk (Disk.readAt file position count))).Ends b
      (fun bytes b' => bytes = ((b.2.disk.bytesAt file).drop position).take count ∧
        HasAt b b.bytes b.1.position b' ∧ b.OnlyFiles b' ∧ b'.CanReach n)
      fun _ _ => b.2.disk.tree.get? file = some .folder := by
  rw [ends_onWorld, ends_onDisk]
  refine (Disk.ends_readAt b.2.disk file position count).mono ?_ ?_
  · rintro bytes d ⟨hk, rfl⟩
    exact ⟨rfl, carries_of_disk b { b.2 with disk := d } hk rfl, rfl, h.kept hk rfl⟩
  · rintro kind d ⟨_, hr⟩
    exact hr.resolve_left (h.obliging kind)

/-- Counting bytes fails only if they were not expected. -/
theorem ends_count (h : b.CanReach n) {count : Nat} (hlt : count < UInt64.size) :
    (onWorld (World.count count)).Ends b
      (fun _ b' => HasAt b b.bytes b.1.position b' ∧ b'.2.net = b.2.net ∧
        Advances count b.2.progress b'.2.progress ∧ b'.CanReach n)
      fun cause _ => cause = .crashed ∧ ¬ HasRoom count b.2.progress := by
  rw [ends_onWorld]
  refine (RangeSync.ends_count b.2 hlt).mono ?_ fun _ _ ⟨_, _, hcause, hno⟩ => ⟨hcause, hno⟩
  rintro _ world ⟨hdisk, hnet, ha⟩
  have hk : b.2.disk.Kept world.disk := hdisk ▸ Kept.refl _
  have hserver : world.net.server = b.2.net.server := by rw [hnet]
  exact ⟨carries_of_disk b world hk hserver, hnet, ha, h.kept hk hserver⟩

end CanReach
end Bench

/-! ### Opening -/

/-- **An output that was opened reaches to its end.** -/
theorem Job.ends_opening_canReach (job : Job) {w : World} (hobliging : w.disk.IsObliging) :
    job.opening.Ends w
      (fun writer w' => job.Opens w (writer, w') ∧ Bench.CanReach (writer, w') job.length.toNat)
      fun _ _ => True := by
  have hreaches : job.opening.Ends w (fun writer _ => writer.Reaches job.length.toNat)
      fun _ _ => True := by
    unfold opening
    rw [Bench.ends_onDisk]
    rcases job.destination with path | _
    · refine (Writer.ends_openAt_file w.disk path job.seed job.length _).mono ?_
        fun _ _ _ => trivial
      rintro _ d ⟨_, _, _, hlength, _⟩
      exact Or.inl hlength
    · exact Writer.ends_openAt_replaceSeed_reaches w.disk job.seed job.length _
  refine ((job.ends_opening w).and hreaches).mono ?_ fun _ _ _ => trivial
  rintro writer w' ⟨hopens, hr⟩
  exact ⟨hopens, hopens.isOpen, hobliging.congr hopens.refuses, hr⟩

end RangeSync
