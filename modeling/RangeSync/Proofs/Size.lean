import RangeSync.Proofs.Overflow

/-!
# The size of an output

An output is made as long as the target at once, before anything is put into it, and it stays so
long: a plan that passes its check has no range that leaves the target, and what a server sends is
cut to the range that was asked for. So neither a seed nor a server can make an output longer or
shorter, at any time – **not even for a moment** (`RangeSync.Job.holds_its_size`). This is more than
a statement about the end of a run. A file is known in all trees that the disk went through, and a
spool puts on record how long it is after each change; `RangeSync.Bench.StaysLong` speaks of all of
these lengths.

The steps that write are few. Everything else that happens on a bench leaves the account of the disk
alone, the trees and the lengths on record, and need not be followed
(`RangeSync.Disk.account`).
-/

namespace RangeSync

open Act Disk

variable {α : Type}

/-! ### The account of a disk -/

/-- All that is told of the files: everything but how many operations were tried. -/
def Disk.account (d : Disk) : Disk :=
  { d with tried := 0 }

namespace Disk

theorem leaves_attempt : attempt.Leaves account := by
  refine leaves_of_ends fun d => ?_
  unfold attempt
  rw [ends_bind, ends_get, ends_bind, ends_set]
  split <;> rfl

theorem leaves_openForReading (path : String) : (openForReading path).Leaves account := by
  refine leaves_bind leaves_attempt fun _ => leaves_bind (leaves_bind ?_ fun s => ?_) fun _ => ?_
  · refine leaves_bind leaves_get fun d => ?_
    split <;> simp
  · split <;> simp
  · exact leaves_pure _

theorem leaves_readAt (place : Location) (position count : Nat) :
    (readAt place position count).Leaves account := by
  refine leaves_bind leaves_attempt fun _ => leaves_bind leaves_get fun d => ?_
  split <;> simp

end Disk

namespace Spool

theorem leaves_attempt : (onFiles attempt).Leaves (·.2.account) :=
  leaves_within Disk.leaves_attempt fun _ _ h => h

theorem leaves_roll : roll.Leaves (·.2.account) := by
  refine leaves_bind leaves_get fun _ => leaves_ite ?_ (leaves_pure _)
  refine leaves_bind leaves_attempt fun _ => leaves_bind leaves_attempt fun _ => ?_
  exact leaves_when (leaves_throw _) (leaves_modify fun _ => rfl)

theorem leaves_seek (target : SeekFrom) : (seek target).Leaves (·.2.account) := by
  refine leaves_bind leaves_get fun _ => leaves_when leaves_attempt ?_
  split
  · exact leaves_throw _
  · exact leaves_bind (leaves_modify fun _ => rfl) fun _ => leaves_pure _

theorem leaves_readAll : readAll.Leaves (·.2.account) := by
  refine leaves_bind leaves_get fun _ => leaves_when leaves_attempt ?_
  exact leaves_bind (leaves_modify fun _ => rfl) fun _ => leaves_pure _

end Spool

namespace Writer

theorem leaves_onFiles {act : FileAct α} (h : act.Leaves account) :
    (onFiles act).Leaves (·.2.account) :=
  leaves_within h fun _ _ h => h

theorem leaves_onSpool {spool : Spool} {act : SpoolAct α} (h : act.Leaves (·.2.account)) :
    (onSpool spool act).Leaves (·.2.account) :=
  leaves_within h fun _ _ h => h

theorem leaves_place (file : Location) (position : Nat) :
    (place file position).Leaves (·.2.account) :=
  leaves_modify fun _ => rfl

theorem leaves_seek (target : SeekFrom) : (seek target).Leaves (·.2.account) := by
  refine leaves_bind leaves_get fun s => ?_
  split
  · refine leaves_bind (leaves_onFiles leaves_attempt) fun _ => leaves_bind leaves_get fun _ => ?_
    dsimp only
    split
    · exact leaves_throw _
    · exact leaves_bind (leaves_place _ _) fun _ => leaves_pure _
  · exact leaves_onSpool (Spool.leaves_seek target)

theorem leaves_digest : digest.Leaves (·.2.account) := by
  refine leaves_bind (leaves_seek _) fun _ => leaves_bind leaves_get fun s => ?_
  split
  · refine leaves_bind (leaves_onFiles leaves_attempt) fun _ => leaves_bind leaves_get fun _ => ?_
    exact leaves_bind (leaves_place _ _) fun _ => leaves_pure _
  · exact leaves_bind (leaves_onSpool Spool.leaves_readAll) fun _ => leaves_pure _

end Writer

/-- All that is told of the files in a world, and its server. -/
def World.account (w : World) : Disk × Http.Server :=
  (w.disk.account, w.net.server)

namespace World

theorem leaves_onDisk {act : FileAct α} (h : act.Leaves Disk.account) :
    (onDisk act).Leaves account :=
  leaves_within h fun _ w hd => congrArg (Prod.mk · w.net.server) hd

end World

/-! ### Lengths so far -/

namespace Disk

variable {d d' : Disk}

/-- **The same is told of two disks** if nothing was done to the tree and nothing put on record. -/
theorem account_eq_iff : d'.account = d.account ↔ d.Kept d' ∧ d'.spooled = d.spooled := by
  simp only [account, Disk.mk.injEq]
  constructor
  · rintro ⟨htree, hcwd, hpast, _, hrefuses, hspooled⟩
    exact ⟨⟨htree, hpast, hcwd, hrefuses⟩, hspooled⟩
  · rintro ⟨hk, hspooled⟩
    exact ⟨hk.tree, hk.cwd, hk.past, trivial, hk.refuses, hspooled⟩

end Disk

/-- Each change of a spool puts its new length on record. -/
theorem Spool.ends_write_spooled (s : Spool) (d : Disk) (data : List UInt8) :
    (write data).Ends (s, d)
      (fun _ t => ∃ count, t.2.spooled = List.replicate count t.1.bytes.length ++ d.spooled)
      fun _ t => t.2.spooled = d.spooled := by
  unfold write
  split
  · exact ⟨0, rfl⟩
  · rw [ends_bind, ends_get]
    dsimp only
    rw [ends_when]
    refine ((leaves_ite leaves_roll (leaves_pure _)).ends (s, d)).mono ?_ ?_
    · intro _ t ht
      rw [ends_bind, ends_get, ends_when]
      refine ((leaves_ite leaves_attempt (leaves_pure _)).ends t).mono ?_ ?_
      · intro _ u hu
        refine ⟨1, ?_⟩
        rw [← (account_eq_iff.mp ht).2, ← (account_eq_iff.mp hu).2]
        rfl
      · intro _ u hu
        exact (account_eq_iff.mp hu).2.trans (account_eq_iff.mp ht).2
    · intro _ t ht
      exact (account_eq_iff.mp ht).2

/-- The length that a spool is given is put on record. -/
theorem Spool.ends_setLength_spooled (s : Spool) (d : Disk) (length : Nat) :
    (setLength length).Ends (s, d)
      (fun _ t => t.2.spooled = t.1.bytes.length :: d.spooled) fun _ _ => True := by
  unfold setLength
  rw [ends_bind, ends_get, ends_when]
  refine ((leaves_ite leaves_roll (leaves_pure _)).ends (s, d)).mono ?_ fun _ _ _ => trivial
  intro _ t ht
  have hspooled := (account_eq_iff.mp ht).2
  rw [ends_bind, ends_get]
  dsimp only
  split
  · rw [ends_bind]
    refine (leaves_attempt.ends t).mono ?_ fun _ _ _ => trivial
    intro _ u hu
    split
    · exact trivial
    · rw [← hspooled, ← (account_eq_iff.mp hu).2]
      rfl
  · rw [← hspooled]
    rfl

namespace Writer

variable {w w' : Writer} {d d' : Disk}

/-- **How long the output was so far**, the latest length first: the file at its site, if it has
one, in every tree, or else the bytes that are collected in a spool. -/
def lengths (w : Writer) (d : Disk) : List (Option Nat) :=
  match w.site with
  | some place => (d.tree :: d.past).map fun t => (t.bytes? place).map List.length
  | none => d.spooled.map some

theorem lengths_of_account (hsite : w'.site = w.site) (h : d'.account = d.account) :
    w'.lengths d' = w.lengths d := by
  obtain ⟨hk, hspooled⟩ := account_eq_iff.mp h
  unfold lengths
  rw [hsite, hk.tree, hk.past, hspooled]

/-- **Writing inside of the output** leaves it as long as it is, and nothing else has been seen. -/
theorem ends_write_lengths {n : Nat} (ho : w.IsOpen d.tree) (hlen : (w.bytes d).length = n)
    {data : List UInt8} (hfit : w.position + data.length ≤ n) :
    (write data).Ends (w, d)
      (fun _ s => ∃ count, s.1.lengths s.2 = List.replicate count (some n) ++ w.lengths d)
      fun _ s => s.1.lengths s.2 = w.lengths d := by
  refine ((ends_write ho data).and (?_ : (write data).Ends (w, d) (fun _ s => (∃ count,
    s.1.lengths s.2 = List.replicate count (some (s.1.bytes s.2).length) ++ w.lengths d))
    fun _ s => s.1.lengths s.2 = w.lengths d)).mono ?_ fun _ _ h => h.2
  · unfold write
    rw [ends_bind, ends_get]
    dsimp only
    split
    · rename_i place position hw
      have hsite : w.site = some place := by simp [site, hw]
      split
      · exact ⟨0, rfl⟩
      · rw [ends_bind, ends_onFiles]
        refine (ends_writeAt d place position data).mono ?_ ?_
        · intro _ d' ht
          obtain ⟨content, mode, time, hf⟩ := ho place hsite
          have hget := Tree.get?_edited hf (overlay · position data)
          rw [← ht.tree] at hget
          refine ⟨1, ?_⟩
          simp [lengths, site, hw, bytes, ht.past, Tree.bytes?_eq hget, bytesAt_eq hget]
        · rintro kind d' ⟨hk, _⟩
          simp [lengths, hsite, hk.tree, hk.past]
    · rename_i spool hw
      rw [ends_onSpool]
      refine (Spool.ends_write_spooled spool d data).mono ?_ ?_
      · rintro _ t ⟨count, hcount⟩
        exact ⟨count, by simp [lengths, site, hw, bytes, hcount]⟩
      · intro _ t ht
        simp [lengths, site, hw, ht]
  · rintro _ s ⟨h, count, hcount⟩
    rw [h.bytes, length_overlay (by rwa [hlen]), hlen] at hcount
    exact ⟨count, hcount⟩

end Writer

namespace Bench

variable {n : Nat} {b b' b'' : Bench}

/-- How long the output was so far, the latest length first. -/
def lengths (b : Bench) : List (Option Nat) :=
  b.1.lengths b.2.disk

/-- **The output stays so long all the time** from one bench to another. -/
structure StaysLong (n : Nat) (b b' : Bench) : Prop where
  carries : Carries b b'
  length : b'.bytes.length = n
  lengths : ∃ count, b'.lengths = List.replicate count (some n) ++ b.lengths

theorem StaysLong.refl (h : b.bytes.length = n) : StaysLong n b b :=
  ⟨Carries.refl b, h, 0, rfl⟩

theorem StaysLong.trans (h : StaysLong n b b') (h' : StaysLong n b' b'') : StaysLong n b b'' := by
  obtain ⟨count, hcount⟩ := h.lengths
  obtain ⟨count', hcount'⟩ := h'.lengths
  refine ⟨h.carries.trans h'.carries, h'.length, count' + count, ?_⟩
  rw [hcount', hcount, ← List.append_assoc, List.replicate_append_replicate]

/-- An output stays as long as it is if the account of the disk is the same. -/
theorem HasAt.staysLong {position : Nat} (h : HasAt b b.bytes position b')
    (ha : b'.2.disk.account = b.2.disk.account) (hlen : b.bytes.length = n) :
    StaysLong n b b' :=
  ⟨h.carries, by rw [h.bytes, hlen], 0, Writer.lengths_of_account h.carries.site ha⟩

theorem leaves_onWriter {act : WriterAct α} (h : act.Leaves (·.2.account)) :
    (onWriter act).Leaves (·.2.disk.account) :=
  leaves_within h fun _ _ h => h

/-- Writing inside of the output. -/
theorem ends_write_staysLong (ho : b.IsOpen) (hlen : b.bytes.length = n) {data : List UInt8}
    (hfit : b.1.position + data.length ≤ n) :
    (onWriter (Writer.write data)).Ends b
      (fun _ b' => StaysLong n b b' ∧ b'.1.position = b.1.position + data.length)
      fun _ b' => StaysLong n b b' := by
  have hlengths := Writer.ends_write_lengths ho hlen hfit
  refine ((ends_write ho data).and (ends_onWriter.mpr hlengths : (onWriter _).Ends b
    (fun _ b' => ∃ count, b'.lengths = List.replicate count (some n) ++ b.lengths)
    fun _ b' => b'.lengths = b.lengths)).mono ?_ ?_
  · rintro _ b' ⟨⟨h, _⟩, hcount⟩
    refine ⟨⟨h.carries, ?_, hcount⟩, h.position⟩
    rw [h.bytes, length_overlay (by rwa [hlen]), hlen]
  · rintro cause b' ⟨⟨h, _⟩, hsame⟩
    exact ⟨h.carries, by rw [h.bytes, hlen], 0, hsame⟩

/-- Moving the position to an offset. -/
theorem ends_seekTo_staysLong (hlen : b.bytes.length = n) (offset : Nat) :
    (onWriter (Writer.seekTo offset)).Ends b
      (fun _ b' => StaysLong n b b' ∧ b'.1.position = offset) fun _ b' => StaysLong n b b' := by
  have hleaves : (Writer.seekTo offset).Leaves (·.2.account) :=
    leaves_bind (Writer.leaves_seek _) fun _ => leaves_pure _
  refine ((ends_seekTo b offset).and ((leaves_onWriter hleaves).ends b)).mono ?_ ?_
  · rintro _ b' ⟨⟨h, _⟩, ha⟩
    exact ⟨h.staysLong ha hlen, h.position⟩
  · rintro cause b' ⟨⟨h, _⟩, ha⟩
    exact h.staysLong ha hlen

/-- Computing the digest. -/
theorem ends_digest_staysLong (hlen : b.bytes.length = n) :
    (onWriter Writer.digest).Ends b
      (fun hex b' => hex = Digest.sha1Hex b.bytes ∧ StaysLong n b b')
      fun _ b' => StaysLong n b b' := by
  refine ((ends_digest b).and ((leaves_onWriter Writer.leaves_digest).ends b)).mono ?_ ?_
  · rintro hex b' ⟨⟨rfl, position, h⟩, ha⟩
    exact ⟨rfl, h.staysLong ha hlen⟩
  · rintro cause b' ⟨⟨⟨position, h⟩, _⟩, ha⟩
    exact h.staysLong ha hlen

/-- What follows on an output that has stayed so long. -/
theorem StaysLong.ends {act : BenchAct α} (h : StaysLong n b b')
    (h' : act.Ends b' (fun _ b'' => StaysLong n b' b'') fun _ b'' => StaysLong n b' b'') :
    act.Ends b' (fun _ b'' => StaysLong n b b'') fun _ b'' => StaysLong n b b'' :=
  h'.mono (fun _ _ h'' => h.trans h'') fun _ _ h'' => h.trans h''

/-- **Work that leaves the files alone** is not seen in the output. -/
theorem ends_staysLong_of_leaves {act : Work α} (h : act.Leaves World.account)
    (hlen : b.bytes.length = n) :
    (onWorld act).Ends b (fun _ b' => StaysLong n b b' ∧ b'.1 = b.1)
      fun _ b' => StaysLong n b b' := by
  have hstay (w' : World) (hw' : w'.account = b.2.account) : StaysLong n b (b.1, w') := by
    obtain ⟨hdisk, hserver⟩ := Prod.mk.inj hw'
    exact (carries_of_disk b w' (account_eq_iff.mp hdisk).1 hserver).staysLong hdisk hlen
  rw [ends_onWorld]
  exact (h.ends b.2).mono (fun _ w' hw' => ⟨hstay w' hw', rfl⟩) fun _ w' hw' => hstay w' hw'

end Bench

/-! ### Copying -/

variable {n : Nat} {b : Bench}

/-- **Copying a number of bytes** that fit. -/
theorem ends_copyBytes_staysLong (ho : b.IsOpen) (hlen : b.bytes.length = n) (file : Location)
    (position left copied : Nat) (hfit : b.1.position + left ≤ n) :
    (copyBytes file position left copied).Ends b (fun _ b' => b.StaysLong n b')
      fun _ b' => b.StaysLong n b' := by
  -- each portion is written inside of what is left
  induction left using Nat.strongRecOn generalizing b position copied with
  | ind left ih =>
    unfold copyBytes
    split
    · exact .refl hlen
    · rw [ends_bind]
      refine ((Bench.ends_readAt b file position (min left copyPortion)).and
        (Bench.ends_staysLong_of_leaves (World.leaves_onDisk (leaves_readAt file position _))
          hlen)).mono ?_ fun _ _ h => h.2
      rintro bytes b₁ ⟨⟨_, _, hbytes⟩, h₁, hwriter⟩
      have hp₁ : b₁.1.position = b.1.position := by rw [hwriter]
      have hcount : bytes.length ≤ min left copyPortion := hbytes ▸ List.length_take_le _ _
      split
      · exact h₁
      · rename_i c rest
        rw [List.length_cons] at hcount
        rw [ends_bind]
        refine (Bench.ends_write_staysLong (h₁.carries.isOpen ho) h₁.length
          (by rw [hp₁, List.length_cons]; omega)).mono ?_ fun _ _ h => h₁.trans h
        rintro _ b₂ ⟨h₂, hp₂⟩
        rw [hp₁, List.length_cons] at hp₂
        have h := h₁.trans h₂
        exact h.ends (ih (left - (rest.length + 1)) (by omega) (h.carries.isOpen ho) h.length _ _
          (by omega))

namespace Job

variable {job : Job}

theorem ends_copyRange_staysLong (ho : b.IsOpen) (hlen : b.bytes.length = n) (file : Location)
    (r : ReuseRange) (hfit : r.destination.toNat + r.length.toNat ≤ n) :
    (job.copyRange file r).Ends b (fun _ b' => b.StaysLong n b') fun _ b' => b.StaysLong n b' := by
  unfold copyRange
  rw [ends_when]
  split
  · exact .refl hlen
  · rw [ends_pure, ends_bind]
    refine (Bench.ends_seekTo_staysLong hlen _).mono ?_ fun _ _ h => h
    rintro _ b₁ ⟨h₁, hp₁⟩
    rw [ends_bind]
    refine (h₁.ends (ends_copyBytes_staysLong (h₁.carries.isOpen ho) h₁.length file _ _ 0
      (by rwa [hp₁]))).mono ?_ fun _ _ h => h
    intro copied b₂ h₂
    split
    · exact h₂
    · exact h₂

/-- **Copying ranges** that end inside of the output. -/
theorem ends_copyRanges_staysLong (ho : b.IsOpen) (hlen : b.bytes.length = n) (file : Location)
    (total : UInt64) {ranges : List ReuseRange}
    (hfit : ∀ r ∈ ranges, r.destination.toNat + r.length.toNat ≤ n) :
    (job.copyRanges file total ranges).Ends b (fun _ b' => b.StaysLong n b')
      fun _ b' => b.StaysLong n b' := by
  induction ranges generalizing b total with
  | nil => exact .refl hlen
  | cons r rest ih =>
    unfold copyRanges
    rw [ends_bind]
    refine (ends_copyRange_staysLong ho hlen file r (hfit r List.mem_cons_self)).mono ?_
      fun _ _ h => h
    intro copied b₁ h₁
    rw [ends_bind, ends_orCrash]
    split
    · exact h₁.ends (ih (h₁.carries.isOpen ho) h₁.length _
        fun r' hr' => hfit r' (List.mem_cons_of_mem _ hr'))
    · exact h₁

theorem ends_copyReuse_staysLong (ho : b.IsOpen) (hlen : b.bytes.length = job.length.toNat)
    (hfor : job.plan.IsFor job.length) :
    job.copyReuse.Ends b (fun _ b' => b.StaysLong job.length.toNat b')
      fun _ b' => b.StaysLong job.length.toNat b' := by
  refine ends_copyReuse_cases (fun _ => .refl hlen) fun _ => ?_
  refine (Bench.ends_staysLong_of_leaves (World.leaves_onDisk (leaves_openForReading job.seed))
    hlen).mono ?_ fun _ _ h => h
  rintro file b₁ ⟨h₁, _⟩
  exact h₁.ends (ends_copyRanges_staysLong (h₁.carries.isOpen ho) h₁.length file 0 hfor.reuse)

end Job

/-! ### Downloading -/

namespace Origin

variable {o : Origin}

/-- **Storing portions** that fit behind one another. -/
theorem ends_store_staysLong (ho : b.IsOpen) (hlen : b.bytes.length = n)
    {pieces : List (List UInt8)} (hfit : b.1.position + pieces.flatten.length ≤ n) :
    (store pieces).Ends b (fun _ b' => b.StaysLong n b') fun _ b' => b.StaysLong n b' := by
  induction pieces generalizing b with
  | nil => exact .refl hlen
  | cons piece rest ih =>
    rw [List.flatten_cons, List.length_append] at hfit
    unfold store
    rw [ends_bind]
    refine (Bench.ends_write_staysLong ho hlen (by omega)).mono ?_ fun _ _ h => h
    rintro _ b₁ ⟨h₁, hp₁⟩
    rw [ends_bind]
    have hcount : (World.count piece.length).Leaves World.account :=
      World.leaves_count (fun _ _ _ => rfl) _
    refine (Bench.ends_staysLong_of_leaves hcount h₁.length).mono ?_ fun _ _ h => h₁.trans h
    rintro _ b₂ ⟨h₂, hwriter⟩
    have h := h₁.trans h₂
    exact h.ends (ih (h.carries.isOpen ho) h.length (by rw [hwriter, hp₁]; omega))

/-- **An answer cannot lengthen the output**, however many bytes it has: what is taken out of it
ends with the range. -/
theorem ends_take_staysLong (ho : b.IsOpen) (hlen : b.bytes.length = n) (r : DownloadRange)
    (target : UInt64) (answer : Http.Response) (hfit : b.1.position + r.span.2 ≤ n) :
    (o.take r target answer).Ends b (fun _ b' => b.StaysLong n b')
      fun _ b' => b.StaysLong n b' := by
  refine ends_take_cases (fun _ => .refl hlen) (fun _ => .refl hlen)
    fun m pieces _ _ _ hpieces _ => ?_
  have hle : (wanted r answer).length ≤ r.span.2 := length_wanted_le
  exact (ends_store_staysLong ho hlen (by rw [hpieces]; omega)).mono
    (fun _ _ h => ⟨fun _ => h, fun _ => h⟩) fun _ _ h => h

/-- Fetching a range, whatever the server answers. -/
theorem ends_fetch_staysLong (ho : b.IsOpen) (hlen : b.bytes.length = n) (r : DownloadRange)
    (target : UInt64) (hfit : b.1.position + r.span.2 ≤ n) :
    (o.fetch r target).Ends b (fun _ b' => b.StaysLong n b') fun _ b' => b.StaysLong n b' := by
  have hstay (net : Http.Net) (log : List Entry) (hserver : net.server = b.2.net.server) :
      b.StaysLong n (b.1, { b.2 with net, log }) :=
    (Bench.carries_of_disk b { b.2 with net, log } (Kept.refl _) hserver).staysLong rfl hlen
  refine ends_fetch_cases (fun _ net hserver _ => hstay net _ hserver)
    (fun _ net hserver _ _ => hstay net _ hserver) fun answer net log hserver _ _ => ?_
  have h₁ := hstay net log hserver
  exact h₁.ends (ends_take_staysLong (h₁.carries.isOpen ho) h₁.length r target answer hfit)

end Origin

namespace Job

variable {job : Job}

/-- **Downloading ranges** that are inside of the output. -/
theorem ends_downloadRanges_staysLong (o : Origin) (ho : b.IsOpen) (hlen : b.bytes.length = n)
    (total : UInt64) {ranges : List DownloadRange}
    (hin : ∀ r ∈ ranges, r.first.toNat ≤ r.last.toNat ∧ r.last.toNat < n) :
    (job.downloadRanges o total ranges).Ends b (fun _ b' => b.StaysLong n b')
      fun _ b' => b.StaysLong n b' := by
  induction ranges generalizing b total with
  | nil => exact .refl hlen
  | cons r rest ih =>
    have hspan : r.first.toNat + r.span.2 ≤ n := by
      have := hin r List.mem_cons_self
      change r.first.toNat + (r.last.toNat + 1 - r.first.toNat) ≤ n
      omega
    unfold downloadRanges
    rw [ends_bind]
    refine (Bench.ends_seekTo_staysLong hlen _).mono ?_ fun _ _ h => h
    rintro _ b₁ ⟨h₁, hp₁⟩
    rw [ends_bind]
    refine (h₁.ends (o.ends_fetch_staysLong (h₁.carries.isOpen ho) h₁.length r job.length
      (by rwa [hp₁]))).mono ?_ fun _ _ h => h
    intro received b₂ h₂
    rw [ends_bind, ends_orCrash]
    split
    · exact h₂.ends (ih (h₂.carries.isOpen ho) h₂.length _
        fun r' hr' => hin r' (List.mem_cons_of_mem _ hr'))
    · exact h₂

theorem ends_downloadAll_staysLong (origin : Option Origin) (ho : b.IsOpen)
    (hlen : b.bytes.length = job.length.toNat) (hfor : job.plan.IsFor job.length) :
    (job.downloadAll origin).Ends b (fun _ b' => b.StaysLong job.length.toNat b')
      fun _ b' => b.StaysLong job.length.toNat b' := by
  rcases origin with _ | o
  · exact .refl hlen
  refine ends_downloadAll_cases (fun _ => .refl hlen) fun announced _ => ?_
  have h₁ : b.StaysLong job.length.toNat
      (b.1, { b.2 with progress := b.2.progress.map (·.announce announced) }) :=
    (Bench.carries_of_disk b { b.2 with progress := b.2.progress.map (·.announce announced) }
      (Kept.refl _) rfl).staysLong rfl hlen
  exact (h₁.ends (ends_downloadRanges_staysLong o (h₁.carries.isOpen ho) h₁.length 0
    hfor.download)).mono (fun _ _ h => ⟨fun _ => h, fun _ _ _ => h⟩) fun _ _ h => h

/-! ### Opening and finishing -/

/-- **A new output has the length of the target**, and that is on record. -/
theorem ends_opening_lengths (job : Job) (w : World) :
    job.opening.Ends w
      (fun writer w' => job.Opens w (writer, w') ∧
        (Bench.lengths (writer, w')).head? = some (some job.length.toNat))
      fun _ _ => True := by
  refine ((job.ends_opening w).and (?_ : job.opening.Ends w (fun writer w' =>
    job.Opens w (writer, w') →
      (Bench.lengths (writer, w')).head? = some (some job.length.toNat)) fun _ _ => True)).mono
        (fun _ _ h => ⟨h.1, h.2 h.1⟩) fun _ _ _ => trivial
  unfold opening
  rw [Bench.ends_onDisk]
  rcases hdest : job.destination with path | _
  · refine (ends_self _ w.disk).mono (fun writer d _ hopens => ?_) fun _ _ _ => trivial
    obtain ⟨s, _, _, hsite, hget, _⟩ := hopens.fresh hdest
    simp [Bench.lengths, Writer.lengths, hsite, Tree.bytes?_eq hget]
  · rw [Writer.ends_openAt_replaceSeed_iff]
    refine ((Spool.ends_setLength _ w.disk job.length.toNat).and
      (Spool.ends_setLength_spooled _ w.disk job.length.toNat)).mono ?_ fun _ _ _ => trivial
    rintro _ t ⟨hs, hspooled⟩ _
    simp [Bench.lengths, Writer.lengths, Writer.site, hspooled, hs.bytes, Spool.empty,
      resized_nil]

/-- **An output keeps its length until it is put into its place or rejected.** -/
theorem ends_finish_staysLong (job : Job) (hlen : b.bytes.length = n) :
    job.finish.Ends b
      (fun path b' => ∃ b₁, b.StaysLong n b₁ ∧ runOn job.settle b₁ = (.ok path, b'))
      fun cause b' => ∃ b₁, b.StaysLong n b₁ ∧
        (b' = b₁ ∨ b' = (runOn job.reject b₁).2 ∨ runOn job.settle b₁ = (.error cause, b')) := by
  refine ends_finish (b.StaysLong n) (fun _ => .refl hlen) (fun expected _ => ?_) fun b₁ h₁ => ?_
  · refine (ends_compare (b.StaysLong n) ?_ fun b₁ h₁ _ => ?_).mono (fun _ _ h => h.2)
      fun _ _ h => h
    · exact (Bench.ends_digest_staysLong hlen).mono (fun _ _ h => h)
        fun _ b₁ h₁ => ⟨b₁, h₁, Or.inl rfl⟩
    · refine (ends_self job.reject b₁).mono ?_ ?_
      · intro _ b₂ hrun
        exact ⟨b₁, h₁, Or.inr (Or.inl (by rw [hrun]))⟩
      · intro cause b₂ hrun
        exact ⟨b₁, h₁, Or.inr (Or.inl (by rw [hrun]))⟩
  · -- settling an output that has stayed so long is the last thing that is done to it
    exact (ends_self job.settle b₁).mono (fun _ _ h => ⟨b₁, h₁, h⟩)
      fun _ _ h => ⟨b₁, h₁, Or.inr (Or.inr h)⟩

/-! ### Runs -/

/-- **An output that a run has opened and that has kept its length since.** -/
def HasKept (job : Job) (w : World) (b' : Bench) : Prop :=
  ∃ b : Bench, runOn job.opening w = (.ok b.1, b.2) ∧
    b.lengths.head? = some (some job.length.toNat) ∧ b.StaysLong job.length.toNat b'

/-- How a run of a job fails whose plan is for the target. -/
inductive FailsSized (job : Job) (w : World) : Stop RebuildFault → World → Prop
  /-- There is nobody to send the requests, and nothing was done. -/
  | unasked {reason : String} : job.origin? = .error reason →
      FailsSized job w (.failed (.client reason)) w
  /-- The output could not be opened. -/
  | unopened {cause : Stop RebuildFault} {w' : World} :
      runOn job.opening w = (.error cause, w') → FailsSized job w cause w'
  /-- The output is left as it is. -/
  | left {cause : Stop RebuildFault} {b : Bench} : job.HasKept w b → FailsSized job w cause b.2
  /-- The output is given up. -/
  | discarded {cause : Stop RebuildFault} {b : Bench} : job.HasKept w b →
      FailsSized job w cause b.discarded
  /-- The output has another digest than the expected one. -/
  | rejected {cause : Stop RebuildFault} {b : Bench} : job.HasKept w b →
      FailsSized job w cause (runOn job.reject b).2.2
  /-- The output cannot be put into its place. -/
  | unsettled {cause : Stop RebuildFault} {b b' : Bench} : job.HasKept w b →
      runOn job.settle b = (.error cause, b') → FailsSized job w cause b'.2

variable {w : World}

theorem HasKept.trans {b b' : Bench} (h : job.HasKept w b)
    (h' : b.StaysLong job.length.toNat b') : job.HasKept w b' := by
  obtain ⟨b₁, hopened, hfirst, hstays⟩ := h
  exact ⟨b₁, hopened, hfirst, hstays.trans h'⟩

theorem HasKept.length (h : job.HasKept w b) : b.bytes.length = job.length.toNat := by
  obtain ⟨_, _, _, hstays⟩ := h
  exact hstays.length

theorem HasKept.isOpen (h : job.HasKept w b) : b.IsOpen := by
  obtain ⟨b₁, hopened, _, hstays⟩ := h
  exact hstays.carries.isOpen ((job.ends_opening w).of_ok hopened).isOpen

/-- **Filling an output keeps its length**, from the first moment to the last. -/
theorem ends_fill_hasKept (job : Job) (w : World) (hfor : job.plan.IsFor job.length) :
    job.fill.Ends w (fun filled w' => job.HasKept w (filled.2.2, w'))
      fun cause w' => job.FailsSized w cause w' := by
  refine ends_fill_cases (fun fault hcheck => ?_) (fun reason _ horigin => .unasked horigin)
    fun origin hcheck horigin => ?_
  · cases hcheck.symm.trans (Plan.check_eq_ok_iff.mpr hfor)
  rw [ends_fill_iff hcheck horigin]
  refine ((job.ends_opening_lengths w).and (ends_self job.opening w)).mono ?_
    fun _ _ h => .unopened h.2
  rintro writer w₁ ⟨⟨hopens, hfirst⟩, hopened⟩
  have h₁ : job.HasKept w (writer, w₁) := by
    refine ⟨(writer, w₁), hopened, hfirst, .refl ?_⟩
    rw [hopens.zeros, List.length_replicate]
  -- a step that fails is given up, with the length that the output still has
  have hgiven {b b' : Bench} {w' : World} (h : job.HasKept w b)
      (h' : b.StaysLong job.length.toNat b') (hw' : w' = b'.discarded ∨ w' = b'.2)
      (cause : Stop RebuildFault) : job.FailsSized w cause w' := by
    rcases hw' with rfl | rfl
    · exact .discarded (h.trans h')
    · exact .left (h.trans h')
  refine (ends_shielded (ends_orAbandon
    (ends_copyReuse_staysLong h₁.isOpen h₁.length hfor))).mono ?_ ?_
  · rintro ⟨reused, writer₂⟩ w₂ h₂
    have hkept := h₁.trans h₂
    refine (ends_orAbandon (ends_downloadAll_staysLong origin hkept.isOpen hkept.length
      hfor)).mono (fun _ _ h₃ => hkept.trans h₃) ?_
    rintro cause w' ⟨b, h₃, hcause⟩
    refine hgiven hkept h₃ ?_ cause
    cases cause with
    | failed _ => exact Or.inl hcause
    | crashed => exact Or.inr hcause
  · rintro cause w' ⟨cause', ⟨b, h₂, hcause⟩, _⟩
    refine hgiven h₁ h₂ ?_ cause
    cases cause' with
    | failed _ => exact Or.inl hcause
    | crashed => exact Or.inr hcause

/-- **The size of an output.** A plan passes its check exactly if it was made for the target and
all of its ranges lie inside, as numbers. A plan that does not pass fails the run, which has done
nothing then. If it passes, then the output has the length of the target from when it is opened to
when it is put into its place, rejected or given up, whatever the seed has and whatever is sent. -/
theorem holds_its_size (job : Job) (w : World) :
    (∀ (plan : Plan) (target : UInt64), plan.check target = .ok () ↔ plan.IsFor target) ∧
      (∀ fault, job.plan.check job.length = .error fault →
        runOn job.run w = (.error (.failed (.plan fault)), w)) ∧
      (job.plan.check job.length = .ok () → job.run.Ends w
        (fun summary w' => ∃ b b', job.HasKept w b ∧
          runOn job.settle b = (.ok summary.path, b') ∧ w' = b'.2)
        fun cause w' => job.FailsSized w cause w') := by
  refine ⟨fun plan target => Plan.check_eq_ok_iff, fun fault hcheck => ?_, fun hcheck => ?_⟩
  · unfold run
    rw [runOn_bind, runOn_ofExcept, hcheck]
    rfl
  · rw [run_eq, ends_bind]
    refine (job.ends_fill_hasKept w (Plan.isFor_of_check hcheck)).mono ?_ fun _ _ h => h
    rintro ⟨reused, downloaded, writer⟩ w₁ h
    refine (ends_close (job.ends_finish_staysLong h.length)).mono ?_ ?_
    · rintro summary w' ⟨_, _, _, _, writer', b, hb, hrun⟩
      exact ⟨b, (writer', w'), h.trans hb, hrun, rfl⟩
    · rintro cause w' ⟨writer', b, hb, hend⟩
      rcases hend with rfl | hreject | hrun
      · exact .left (h.trans hb)
      · have hw' : w' = (runOn job.reject b).2.2 := congrArg Prod.snd hreject
        exact hw' ▸ .rejected (h.trans hb)
      · exact .unsettled (h.trans hb) hrun

/-- A job for the longest of all targets, whose plan puts one byte behind its end. -/
def reaching : Job :=
  { repeating with
    length := 18446744073709551615
    plan := ⟨none, [⟨18446744073709551615, 0, 0⟩, ⟨18446744073709551615, 0, 1⟩], []⟩ }

/-- A range may be empty at the end of the target, but it may not wrap around behind it; ranges that
end with the target pass. -/
theorem holds_its_size_at_the_end :
    ¬ reaching.plan.IsFor reaching.length ∧
      (∃ fault, runOn reaching.run counted = (.error (.failed (.plan fault)), counted)) ∧
      repeating.plan.IsFor repeating.length ∧
      repeating.run.Ends counted
        (fun summary w' => ∃ b b', repeating.HasKept counted b ∧
          runOn repeating.settle b = (.ok summary.path, b') ∧ w' = b'.2)
        fun cause w' => repeating.FailsSized counted cause w' := by
  obtain ⟨hiff, hrejected, _⟩ := holds_its_size reaching counted
  obtain ⟨_, _, hrun⟩ := holds_its_size repeating counted
  have hno : reaching.plan.check reaching.length =
      .error (.writesOutside ⟨18446744073709551615, 0, 1⟩ 18446744073709551615) := rfl
  refine ⟨fun hfor => ?_, ⟨_, hrejected _ hno⟩, (hiff _ _).mp rfl, hrun rfl⟩
  rw [(hiff _ _).mpr hfor] at hno
  cases hno

end Job

end RangeSync
