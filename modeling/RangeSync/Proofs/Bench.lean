import RangeSync.Proofs.Ranges
import RangeSync.Proofs.Writer
import RangeSync.Rebuild.Fetch

/-!
# An output and the world around it

The steps of a run work on a bench: an output and the world. Here the relations on outputs are
carried over to benches, together with the two parts of the world that matter to a run besides its
disk: the server, which stays the same one, and the count of downloaded bytes. What a run makes of
its output is put together from `RangeSync.Bench.Wrote` and `RangeSync.Bench.Laid`.

Counting is what can make a run crash: a tracker that was told how many bytes to expect stops the
run at the first byte too many. `RangeSync.HasRoom` says that this does not happen, and
`RangeSync.Advances` is what counting does.
-/

namespace RangeSync

open Act Disk

/-! ### Counting -/

/-- So many bytes more were counted, and as many are expected as before. -/
def Advances (count : Nat) (before after : Option Tracker) : Prop :=
  match before, after with
  | none, none => True
  | some t, some t' => t'.completed.toNat = t.completed.toNat + count ∧ t'.total = t.total
  | _, _ => False

/-- So many bytes more are expected, if anybody counts. -/
def HasRoom (count : Nat) (progress : Option Tracker) : Prop :=
  ∀ t, progress = some t → t.completed.toNat + count ≤ t.total.toNat

variable {count count' : Nat} {p p' p'' : Option Tracker}

theorem Advances.refl (p : Option Tracker) : Advances 0 p p := by
  cases p with
  | none => trivial
  | some t => exact ⟨rfl, rfl⟩

theorem Advances.trans (h : Advances count p p') (h' : Advances count' p' p'') :
    Advances (count + count') p p'' := by
  cases p with
  | none =>
    cases p' with
    | none =>
      cases p'' with
      | none => trivial
      | some => exact h'.elim
    | some => exact h.elim
  | some t =>
    cases p' with
    | none => exact h.elim
    | some t' =>
      cases p'' with
      | none => exact h'.elim
      | some t'' =>
        refine ⟨?_, h'.2.trans h.2⟩
        rw [h'.1, h.1, Nat.add_assoc]

theorem HasRoom.mono (h : HasRoom count p) (hle : count' ≤ count) : HasRoom count' p :=
  fun t ht => Nat.le_trans (Nat.add_le_add_left hle _) (h t ht)

/-- Room that is used up is gone, the rest is there. -/
theorem HasRoom.advance (h : HasRoom (count + count') p) (ha : Advances count p p') :
    HasRoom count' p' := by
  intro t' ht'
  subst ht'
  cases p with
  | none => exact ha.elim
  | some t =>
    have hroom := h t rfl
    rw [ha.1, ha.2]
    omega

namespace World

variable {ρ : Type} {part : World → ρ}

/-- Counting leaves everything alone but the count and the log. -/
theorem leaves_count
    (h : ∀ (w : World) progress log, part { w with progress, log } = part w) (count : Nat) :
    (World.count count).Leaves part := by
  refine leaves_of_ends fun w => ?_
  unfold World.count
  rw [ends_bind, ends_get]
  split
  · rfl
  · split
    · exact h _ _ _
    · exact h _ _ _

/-- To check the count is to leave everything alone. -/
theorem leaves_assertComplete : assertComplete.Leaves part := by
  refine leaves_bind leaves_get fun w => ?_
  split
  · exact leaves_pure _
  · exact leaves_ite (leaves_pure _) leaves_crash

end World

theorem ends_count (w : World) (h : count < UInt64.size) :
    (World.count count).Ends w
      (fun _ w' => w'.disk = w.disk ∧ w'.net = w.net ∧ Advances count w.progress w'.progress)
      fun cause w' => w'.disk = w.disk ∧ w'.net = w.net ∧ cause = .crashed ∧
        ¬ HasRoom count w.progress := by
  unfold World.count
  rw [ends_bind, ends_get]
  split
  · rename_i hnone
    refine ⟨rfl, rfl, ?_⟩
    rw [hnone]
    trivial
  · rename_i t hsome
    have hcount : (UInt64.ofNat count).toNat = count := UInt64.toNat_ofNat_of_lt' h
    unfold Tracker.advance
    rw [hcount]
    by_cases hroom : t.completed.toNat + count ≤ t.total.toNat
    · simp only [if_pos hroom]
      refine ⟨rfl, rfl, ?_⟩
      rw [hsome]
      refine ⟨?_, rfl⟩
      have htotal := t.total.toNat_lt_size
      change (t.completed + UInt64.ofNat count).toNat = _
      rw [UInt64.toNat_add, hcount]
      exact Nat.mod_eq_of_lt (Nat.lt_of_le_of_lt hroom htotal)
    · simp only [if_neg hroom]
      exact ⟨rfl, rfl, rfl, fun hc => hroom (hc t hsome)⟩

/-! ### Benches -/

namespace Bench

variable {b b' b'' : Bench} {α : Type} {output data more : List UInt8} {position : Nat}
  {patches others : List Patch}

/-- The output can be written. -/
def IsOpen (b : Bench) : Prop :=
  b.1.IsOpen b.2.disk.tree

/-- The bytes of the output. -/
def bytes (b : Bench) : List UInt8 :=
  b.1.bytes b.2.disk

/-- **The output goes on as the same one**, in a world with the same server. -/
structure Carries (b b' : Bench) : Prop where
  writer : Writer.Carries (b.1, b.2.disk) (b'.1, b'.2.disk)
  server : b'.2.net.server = b.2.net.server

/-- The output goes on, and has these bytes and this position. -/
structure HasAt (b : Bench) (bytes : List UInt8) (position : Nat) (b' : Bench) : Prop where
  carries : Carries b b'
  bytes : b'.bytes = bytes
  position : b'.1.position = position

/-- Nothing of the world is different but its files. -/
def OnlyFiles (b b' : Bench) : Prop :=
  b'.2 = { b.2 with disk := b'.2.disk }

theorem OnlyFiles.refl (b : Bench) : OnlyFiles b b :=
  rfl

theorem OnlyFiles.trans (h : OnlyFiles b b') (h' : OnlyFiles b' b'') : OnlyFiles b b'' := by
  rw [OnlyFiles, h', h]

theorem OnlyFiles.progress (h : OnlyFiles b b') : b'.2.progress = b.2.progress := by
  rw [h]

theorem OnlyFiles.net (h : OnlyFiles b b') : b'.2.net = b.2.net := by
  rw [h]

theorem Carries.refl (b : Bench) : Carries b b :=
  ⟨Writer.Carries.refl _, rfl⟩

theorem Carries.trans (h : Carries b b') (h' : Carries b' b'') : Carries b b'' :=
  ⟨h.writer.trans h'.writer, h'.server.trans h.server⟩

theorem Carries.isOpen (h : Carries b b') (ho : b.IsOpen) : b'.IsOpen :=
  h.writer.isOpen ho

theorem Carries.site (h : Carries b b') : b'.1.site = b.1.site :=
  h.writer.site

theorem Carries.refuses (h : Carries b b') : b'.2.disk.refuses = b.2.disk.refuses :=
  h.writer.disk.refuses

theorem Carries.hasAt (h : Carries b b') (h' : HasAt b' output position b'') :
    HasAt b output position b'' :=
  ⟨h.trans h'.carries, h'.bytes, h'.position⟩

theorem HasAt.refl (b : Bench) : HasAt b b.bytes b.1.position b :=
  ⟨Carries.refl b, rfl, rfl⟩

/-- **The data was written** over the output from its position on, which is behind the data now. -/
def Wrote (b : Bench) (data : List UInt8) (b' : Bench) : Prop :=
  HasAt b (overlay b.bytes b.1.position data) (b.1.position + data.length) b'

theorem Wrote.nil (h : HasAt b b.bytes b.1.position b') : b.Wrote [] b' :=
  h

theorem Wrote.append (h : b.Wrote data b') (h' : b'.Wrote more b'') :
    b.Wrote (data ++ more) b'' := by
  have h'' := h.carries.hasAt h'
  rw [h.bytes, h.position, overlay_overlay, Nat.add_assoc, ← List.length_append] at h''
  exact h''

/-- **The patches were laid** over the output, one after the other. The position may be anywhere
then. -/
def Laid (b : Bench) (patches : List Patch) (b' : Bench) : Prop :=
  ∃ position, HasAt b (patched b.bytes patches) position b'

theorem Laid.carries (h : b.Laid patches b') : Carries b b' := by
  obtain ⟨_, h⟩ := h
  exact h.carries

theorem Laid.bytes (h : b.Laid patches b') : b'.bytes = patched b.bytes patches := by
  obtain ⟨_, h⟩ := h
  exact h.bytes

theorem Laid.nil (h : HasAt b b.bytes position b') : b.Laid [] b' :=
  ⟨position, h⟩

theorem Laid.append (h : b.Laid patches b') (h' : b'.Laid others b'') :
    b.Laid (patches ++ others) b'' := by
  obtain ⟨position, h''⟩ := h'
  rw [h.bytes, ← patched_append] at h''
  exact ⟨position, h.carries.hasAt h''⟩

/-- Data that is written at an offset is a patch. -/
theorem Wrote.laid (h' : b'.Wrote data b'') (h : HasAt b b.bytes position b') :
    b.Laid [(position, data)] b'' := by
  have h'' := h.carries.hasAt h'
  rw [h.bytes, h.position] at h''
  exact ⟨_, h''⟩

/-- An entry that is not the file at the site stays as it is. -/
theorem Carries.get? (h : Carries b b') {place : Location} (hne : b.1.site ≠ some place) :
    b'.2.disk.tree.get? place = b.2.disk.tree.get? place :=
  h.writer.tree.rest place hne

theorem Carries.bytesAt (h : Carries b b') {place : Location} (hne : b.1.site ≠ some place) :
    b'.2.disk.bytesAt place = b.2.disk.bytesAt place := by
  rw [Disk.bytesAt, Disk.bytesAt, Tree.bytes?_congr (h.get? hne)]

/-- **A file that is not the output stays as it is**, and its path goes on to lead to it. -/
theorem Carries.fileAt (h : Carries b b') (ho : b.IsOpen) {path : String} {place : Location}
    {content : List UInt8} (hfile : b.2.disk.FileAt path place content)
    (hne : b.1.site ≠ some place) : b'.2.disk.FileAt path place content := by
  obtain ⟨mode, time, hw⟩ := hfile
  have htree := h.writer.tree
  refine ⟨mode, time, ?_⟩
  rw [h.writer.disk.cwd]
  rcases hsite : b.1.site with _ | site
  · rw [hsite] at htree
    rw [Tree.walk_congr htree.same]
    exact hw
  · rw [hsite] at htree hne
    obtain ⟨_, _, _, hget⟩ := ho site hsite
    exact Tree.walk_past hw (Tree.ne_nil_of_file hget) (Or.inr ⟨_, _, _, hget⟩)
      (fun heq => hne (congrArg some heq.symm)) htree.sameOff

/-- Work on the world that leaves the disk and the server alone. -/
theorem carries_of_disk (b : Bench) (world : World) (hdisk : b.2.disk.Kept world.disk)
    (hserver : world.net.server = b.2.net.server) :
    HasAt b b.bytes b.1.position (b.1, world) := by
  refine ⟨⟨⟨rfl, rfl, rfl, hdisk.along⟩, hserver⟩, ?_, rfl⟩
  simp only [Bench.bytes, Writer.bytes, Disk.bytesAt, hdisk.tree]

theorem ends_onWriter {act : WriterAct α} {post : α → Bench → Prop}
    {fail : Stop RebuildFault → Bench → Prop} :
    (onWriter act).Ends b post fail ↔
      act.Ends (b.1, b.2.disk) (fun a s => post a (s.1, { b.2 with disk := s.2 }))
        fun kind s => fail (.failed (.files kind)) (s.1, { b.2 with disk := s.2 }) :=
  ends_within

theorem ends_onWorld {act : Work α} {post : α → Bench → Prop}
    {fail : Stop RebuildFault → Bench → Prop} :
    (onWorld act).Ends b post fail ↔
      act.Ends b.2 (fun a world => post a (b.1, world)) fun cause world =>
        fail cause (b.1, world) :=
  ends_within

theorem ends_onDisk {act : FileAct α} {w : World} {post : α → World → Prop}
    {fail : Stop RebuildFault → World → Prop} :
    (World.onDisk act).Ends w post fail ↔
      act.Ends w.disk (fun a d => post a { w with disk := d })
        fun kind d => fail (.failed (.files kind)) { w with disk := d } :=
  ends_within

/-- Another state of the output, in the same world. -/
theorem hasAt_of_writer {s : Writer × Disk}
    (h : Writer.HasAt (b.1, b.2.disk) output position s) :
    HasAt b output position (s.1, { b.2 with disk := s.2 }) :=
  ⟨⟨h.carries, rfl⟩, h.bytes, h.position⟩

/-- Writing. If it fails, nothing was written. -/
theorem ends_write (ho : b.IsOpen) (data : List UInt8) :
    (onWriter (Writer.write data)).Ends b
      (fun _ b' => b.Wrote data b' ∧ b.OnlyFiles b')
      fun cause b' => HasAt b b.bytes b.1.position b' ∧ ∃ kind, cause = .failed (.files kind) ∧
        (b.2.disk.Refuses kind ∨ fileLimit < b.1.position) := by
  rw [ends_onWriter]
  refine (Writer.ends_write ho data).mono ?_ ?_
  · intro _ s h
    exact ⟨hasAt_of_writer h, rfl⟩
  · rintro kind s ⟨h, hr⟩
    exact ⟨hasAt_of_writer h, kind, rfl, hr⟩

/-- Moving the position to an offset. -/
theorem ends_seekTo (b : Bench) (offset : Nat) :
    (onWriter (Writer.seekTo offset)).Ends b
      (fun _ b' => HasAt b b.bytes offset b' ∧ OnlyFiles b b')
      fun cause b' => HasAt b b.bytes b.1.position b' ∧ ∃ kind, cause = .failed (.files kind) ∧
        (b.2.disk.Refuses kind ∨ fileLimit < offset) := by
  rw [ends_onWriter]
  refine (Writer.ends_seekTo b.1 b.2.disk offset).mono ?_ ?_
  · intro _ s h
    exact ⟨hasAt_of_writer h, rfl⟩
  · rintro kind s ⟨h, hr⟩
    exact ⟨hasAt_of_writer h, kind, rfl, hr⟩

/-- **The output is in the way** of an operation that reaches so far: it is refused, it leaves what
a file can hold, or a check fails that holds in a steady run. -/
inductive Hinders (b : Bench) (reach : Nat) (isSteady : Prop) : Stop RebuildFault → Prop
  | refused {kind : IoKind} : b.2.disk.Refuses kind ∨ fileLimit < reach →
      Hinders b reach isSteady (.failed (.files kind))
  | crashed : ¬ isSteady → Hinders b reach isSteady .crashed

namespace Hinders

variable {reach reach' : Nat} {p q : Prop} {cause : Stop RebuildFault}

/-- What hinders a part of the operations hinders all of them. -/
theorem mono (h : b'.Hinders reach p cause) (hrefuses : b'.2.disk.refuses = b.2.disk.refuses)
    (hreach : reach ≤ reach') (hsteady : q → p) : b.Hinders reach' q cause := by
  cases h with
  | refused h =>
    exact .refused (h.imp (refuses_congr hrefuses) fun hfar => Nat.lt_of_lt_of_le hfar hreach)
  | crashed h => exact .crashed fun hq => h (hsteady hq)

theorem not_of_crashed (h : b.Hinders reach p cause) (hcause : cause = .crashed) : ¬ p := by
  cases h with
  | refused _ => cases hcause
  | crashed hno => exact hno

theorem not_of_obliging (h : b.Hinders reach p cause) (hobliging : b.2.disk.IsObliging)
    (hreach : reach ≤ fileLimit) : ¬ p := by
  cases h with
  | @refused kind hr =>
    rcases hr with hr | hfar
    · exact (hobliging kind hr).elim
    · exact absurd hreach (Nat.not_le_of_lt hfar)
  | crashed hno => exact hno

end Hinders

end Bench
end RangeSync
