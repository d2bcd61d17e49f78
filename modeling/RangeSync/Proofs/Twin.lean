import RangeSync.Proofs.Size
import RangeSync.Sync.Metadata

/-!
# Disks that cannot be told apart

Each operation that is tried on a disk has a number, and the system may refuse it by that number. So
two runs that try a different number of operations can fare differently even where they do the same,
and they cannot be compared as long as something may still be refused. From the moment on where
nothing will be refused any more (`RangeSync.Disk.IsWilling`), the numbers do not matter: two disks
with the same trees and the same working directory are **twins** (`RangeSync.Disk.Twin`), and no
operation can tell them apart.

* Every operation on files that a finished output needs respects twins, down to the order of the
  trees that a disk went through.
* **A willing disk has a twin that refuses nothing at all**, so what is known of obliging disks
  holds of it (`RangeSync.Disk.ends_of_obliged`).
* Two outputs with the same bytes are put into their place alike, wherever their positions are
  (`RangeSync.Writer.alike_commit`, `RangeSync.Job.alike_settle`).
-/

namespace RangeSync

open Act Disk

variable {α : Type}

namespace Disk

variable {d d' d'' : Disk} {path : String} {place : Location} {bytes : List UInt8}

/-- The system refuses nothing from now on. -/
def IsWilling (d : Disk) : Prop :=
  ∀ number, d.tried ≤ number → d.refuses number = none

/-- **Two disks that cannot be told apart**: they went through the same trees, and nothing will be
refused on either of them. -/
structure Twin (d d' : Disk) : Prop where
  tree : d'.tree = d.tree
  past : d'.past = d.past
  cwd : d'.cwd = d.cwd
  willing : d.IsWilling
  other : d'.IsWilling

theorem Twin.symm (h : d.Twin d') : d'.Twin d :=
  ⟨h.tree.symm, h.past.symm, h.cwd.symm, h.other, h.willing⟩

theorem Twin.trans (h : d.Twin d') (h' : d'.Twin d'') : d.Twin d'' :=
  ⟨h'.tree.trans h.tree, h'.past.trans h.past, h'.cwd.trans h.cwd, h.willing, h'.other⟩

theorem IsObliging.isWilling (h : d.IsObliging) : d.IsWilling := by
  intro number _
  rcases hn : d.refuses number with _ | kind
  · rfl
  · exact (h kind ⟨number, hn⟩).elim

/-- The disk as it would be if nothing were ever refused. -/
def obliged (d : Disk) : Disk :=
  { d with refuses := fun _ => none }

theorem isObliging_obliged (d : Disk) : d.obliged.IsObliging := by
  rintro kind ⟨number, hn⟩
  cases hn

/-- **A willing disk has a twin that refuses nothing.** -/
theorem IsWilling.twin_obliged (h : d.IsWilling) : d.Twin d.obliged :=
  ⟨rfl, rfl, rfl, h, (isObliging_obliged d).isWilling⟩

/-- A willing disk on which nothing has been done but to try operations that refuse nothing. -/
theorem twin_of_account (h : d'.account = d.account) (hd : d.IsObliging) : d.Twin d' := by
  obtain ⟨hk, _⟩ := account_eq_iff.mp h
  exact ⟨hk.tree, hk.past, hk.cwd, hd.isWilling, (hd.congr hk.refuses).isWilling⟩

/-! ### Operations -/

theorem respects_attempt : attempt.Respects Twin := by
  intro d d' h
  have hrun {d : Disk} (hd : d.IsWilling) :
      runOn attempt d = (.ok ⟨⟩, { d with tried := d.tried + 1 }) := by
    unfold attempt
    rw [runOn_bind, runOn_get]
    dsimp only
    rw [runOn_bind, runOn_set, hd d.tried (Nat.le_refl _)]
    rfl
  rw [Alike, hrun h.willing, hrun h.other]
  refine ⟨rfl, h.tree, h.past, h.cwd, fun number hn => ?_, fun number hn => ?_⟩
  · exact h.willing number (Nat.le_of_succ_le hn)
  · exact h.other number (Nat.le_of_succ_le hn)

theorem respects_change (f : Tree → Tree) : (change f).Respects Twin := by
  refine respects_modify fun d d' h => ⟨?_, ?_, h.cwd, h.willing, h.other⟩
  · rw [h.tree]
  · rw [h.tree, h.past]

theorem respects_spot (follow : Bool) (path : String) : (spot follow path).Respects Twin := by
  refine respects_get fun d d' h => ?_
  rw [h.tree, h.cwd]
  split
  · exact respects_pure _ _ _ h
  · exact respects_throw _ _ _ h

theorem respects_node (follow : Bool) (path : String) : (node follow path).Respects Twin := by
  refine respects_bind (respects_spot follow path) fun s => ?_
  split
  · exact respects_pure _
  · exact respects_throw _

theorem respects_mode? (path : String) : (mode? path).Respects Twin := by
  refine respects_get fun d d' h => ?_
  rw [h.tree, h.cwd]
  split <;> exact respects_pure _ _ _ h

theorem respects_contents (path : String) : (contents path).Respects Twin := by
  refine respects_bind ?_ fun place => respects_bind respects_attempt fun _ => ?_
  · exact respects_bind respects_attempt fun _ =>
      respects_bind (respects_node true path) fun _ => respects_pure _
  · refine respects_get fun d d' h => ?_
    rw [h.tree]
    split
    · exact respects_pure _ _ _ h
    · exact respects_throw _ _ _ h
    · exact respects_pure _ _ _ h

theorem respects_createTemporary (folder : String) : (createTemporary folder).Respects Twin := by
  refine respects_bind respects_attempt fun _ => ?_
  refine respects_bind (respects_node true folder) fun found => ?_
  split
  · refine respects_get fun d d' h => ?_
    rw [h.tree]
    exact respects_bind (respects_change _) (fun _ => respects_pure _) _ _ h
  · exact respects_throw _

theorem respects_writeAt (place : Location) (position : Nat) (data : List UInt8) :
    (writeAt place position data).Respects Twin :=
  respects_bind respects_attempt fun _ => respects_change _

theorem respects_setMode (place : Location) (mode : Nat) : (setMode place mode).Respects Twin :=
  respects_bind respects_attempt fun _ => respects_change _

theorem respects_spotToReplace (path : String) : (spotToReplace path).Respects Twin := by
  unfold spotToReplace
  dsimp only
  refine respects_ite (respects_bind (respects_spot true _) fun _ => respects_throw _) ?_
  refine respects_ite (respects_throw _) (respects_bind (respects_spot false _) fun s => ?_)
  exact respects_ite (respects_throw _) (respects_pure _)

theorem respects_rename (place : Location) (path : String) :
    (rename place path).Respects Twin := by
  refine respects_bind respects_attempt fun _ => respects_bind (respects_spotToReplace path) ?_
  intro s
  split
  · exact respects_throw _
  · exact respects_bind (respects_pure _) fun _ => respects_change _
  · exact respects_bind (respects_pure _) fun _ => respects_change _

theorem respects_remove (path : String) : (remove path).Respects Twin := by
  refine respects_bind respects_attempt fun _ => respects_bind (respects_node false path) ?_
  intro found
  split
  · exact respects_throw _
  · exact respects_change _

theorem respects_setModified (path : String) (time : Time.Instant) :
    (setModified path time).Respects Twin := by
  refine respects_bind respects_attempt fun _ => respects_bind (respects_node true path) ?_
  intro found
  split
  · exact respects_change _
  · exact respects_throw _

/-- **A file that is found is read on a willing disk.** -/
theorem ends_contents_of_willing (h : d.IsWilling) (hfile : d.FileAt path place bytes) :
    (contents path).Ends d (fun read d' => read = bytes ∧ d.Twin d' ∧ d.Kept d')
      fun _ _ => False := by
  have hobliged : (contents path).Ends d.obliged
      (fun read t => read = bytes ∧ d.obliged.Twin t) fun _ _ => False := by
    refine (ends_contents d.obliged path).mono ?_ ?_
    · rintro read t ⟨hk, place', e, hw, rfl⟩
      obtain ⟨rfl, -⟩ := hfile.eq_of_walk hw
      have hwilling := ((isObliging_obliged d).congr hk.refuses).isWilling
      exact ⟨hfile.bytesAt, hk.tree, hk.past, hk.cwd, (isObliging_obliged d).isWilling, hwilling⟩
    · rintro kind t ⟨_, hr | hno⟩
      · exact isObliging_obliged d kind hr
      · exact hno place bytes hfile
  refine (((respects_contents path _ _ h.twin_obliged).ends hobliged).and
    (ends_contents d path)).mono ?_ ?_
  · rintro read d' ⟨⟨t, ht, rfl, ht'⟩, hk, _⟩
    exact ⟨rfl, h.twin_obliged.trans (ht'.trans ht.symm), hk⟩
  · rintro _ _ ⟨⟨_, _, hno⟩, _⟩
    exact hno

/-! ### Things beside a disk -/

section

variable {ρ ε : Type}

/-- The same thing beside two disks that cannot be told apart. -/
def Twins (s t : ρ × Disk) : Prop :=
  t.1 = s.1 ∧ s.2.Twin t.2

/-- **What is done on a willing disk is done as if nothing were ever refused**: an action that only
looks at the files answers there, if it answers on a disk that refuses nothing. -/
theorem ends_of_obliged {act : Act (ρ × Disk) ε α} {x : ρ} {d : Disk} (post : α → ρ → Prop)
    (hr : act.Respects Twins) (hl : act.Leaves (·.2.account)) (h : d.IsWilling)
    (he : act.Ends (x, d.obliged) (fun a t => t.2.tree = d.tree → post a t.1) fun _ _ => False) :
    act.Ends (x, d) (fun a s => post a s.1 ∧ d.Twin s.2) fun _ _ => False := by
  have halike := hr (x, d) (x, d.obliged) ⟨rfl, h.twin_obliged⟩
  refine (halike.ends (he.and (hl.ends (x, d.obliged)))).mono ?_ fun _ _ ⟨_, _, hno, _⟩ => hno
  rintro a s ⟨t, ⟨hx, ht⟩, hpost, haccount⟩
  have htwin := twin_of_account haccount (isObliging_obliged d)
  rw [← hx]
  exact ⟨hpost htwin.tree, h.twin_obliged.trans (htwin.trans ht.symm)⟩

end

end Disk

namespace Spool

theorem respects_attempt : (onFiles attempt).Respects Twins := by
  rintro ⟨_, d⟩ ⟨s, d'⟩ ⟨rfl, h⟩
  exact alike_within (Disk.respects_attempt d d' h) fun _ _ h => ⟨rfl, h⟩

theorem respects_seek (target : SeekFrom) : (seek target).Respects Twins := by
  refine respects_get ?_
  rintro ⟨_, d⟩ ⟨s, d'⟩ ⟨rfl, h⟩
  dsimp only
  refine respects_when respects_attempt (fun _ => ?_) _ _ ⟨rfl, h⟩
  split
  · exact respects_throw _
  · refine respects_bind (respects_modify ?_) fun _ => respects_pure _
    rintro ⟨_, d⟩ ⟨s, d'⟩ ⟨rfl, h⟩
    exact ⟨rfl, h⟩

theorem respects_readAll : readAll.Respects Twins := by
  refine respects_get ?_
  rintro ⟨_, d⟩ ⟨s, d'⟩ ⟨rfl, h⟩
  dsimp only
  refine respects_when respects_attempt (fun _ => ?_) _ _ ⟨rfl, h⟩
  refine respects_bind (respects_modify ?_) fun _ => respects_pure _
  rintro ⟨_, d⟩ ⟨s, d'⟩ ⟨rfl, h⟩
  exact ⟨rfl, h⟩

/-- All bytes of a spool are read again on a willing disk. -/
theorem ends_reread (s : Spool) {d : Disk} (h : d.IsWilling) :
    (seek (.start 0) >>= fun _ => readAll).Ends (s, d)
      (fun bytes t => bytes = s.bytes ∧ d.Twin t.2) fun _ _ => False := by
  refine ends_of_obliged (fun bytes _ => bytes = s.bytes)
    (respects_bind (respects_seek _) fun _ => respects_readAll)
    (leaves_bind (leaves_seek _) fun _ => leaves_readAll) h ?_
  rw [ends_bind]
  refine (ends_seek s d.obliged (.start 0)).mono ?_ ?_
  · rintro a ⟨s₁, d₁⟩ ⟨ht, hat⟩
    obtain rfl : 0 = a := Int.ofNat_inj.mp ht
    refine (ends_readAll s₁ d₁).mono ?_ ?_
    · rintro bytes t ⟨rfl, _⟩ _
      have hb : s₁.bytes = s.bytes := hat.bytes
      have hp : s₁.position = 0 := hat.position
      rw [hb, hp, List.drop_zero]
    · rintro kind t ⟨_, hr⟩
      exact isObliging_obliged d kind (refuses_congr hat.kept.refuses hr)
  · -- the start can always be reached
    rintro kind t ⟨_, hr | ⟨_, hnone⟩⟩
    · exact isObliging_obliged d kind hr
    · exact absurd (SeekFrom.within?_start.mp hnone) (Nat.not_lt_zero _)

end Spool

namespace Writer

variable {w w' : Writer} {d d' : Disk}

theorem respects_onFiles {act : FileAct α} (h : act.Respects Twin) :
    (onFiles act).Respects Twins := by
  rintro ⟨_, d⟩ ⟨w, d'⟩ ⟨rfl, ht⟩
  exact alike_within (h d d' ht) fun _ _ h => ⟨rfl, h⟩

theorem respects_onSpool {spool : Spool} {act : SpoolAct α} (h : act.Respects Twins) :
    (onSpool spool act).Respects Twins := by
  rintro ⟨_, d⟩ ⟨w, d'⟩ ⟨rfl, ht⟩
  refine alike_within (h (spool, d) (spool, d') ⟨rfl, ht⟩) ?_
  rintro ⟨_, d⟩ ⟨s, d'⟩ ⟨rfl, h⟩
  exact ⟨rfl, h⟩

theorem respects_place (file : Location) (position : Nat) :
    (place file position).Respects Twins := by
  refine respects_modify ?_
  rintro ⟨_, d⟩ ⟨w, d'⟩ ⟨rfl, h⟩
  exact ⟨rfl, h⟩

theorem respects_seek (target : SeekFrom) : (seek target).Respects Twins := by
  refine respects_get ?_
  rintro ⟨_, d⟩ ⟨w, d'⟩ ⟨rfl, h⟩
  dsimp only
  split
  · refine respects_bind (respects_onFiles Disk.respects_attempt) (fun _ => ?_) _ _ ⟨rfl, h⟩
    refine respects_get ?_
    rintro ⟨_, d⟩ ⟨w, d'⟩ ⟨rfl, h⟩
    have htwins : Twins (w, d) (w, d') := ⟨rfl, h⟩
    dsimp only at h ⊢
    rw [content, content, h.tree]
    split
    · exact respects_throw _ _ _ htwins
    · exact respects_bind (respects_place _ _) (fun _ => respects_pure _) _ _ htwins
  · exact respects_onSpool (Spool.respects_seek target) _ _ ⟨rfl, h⟩

theorem respects_digest : digest.Respects Twins := by
  refine respects_bind (respects_seek _) fun _ => respects_get ?_
  rintro ⟨_, d⟩ ⟨w, d'⟩ ⟨rfl, h⟩
  dsimp only
  split
  · refine respects_bind (respects_onFiles Disk.respects_attempt) (fun _ => ?_) _ _ ⟨rfl, h⟩
    refine respects_get ?_
    rintro ⟨_, d⟩ ⟨w, d'⟩ ⟨rfl, h⟩
    dsimp only
    rw [content, content, h.tree]
    exact respects_bind (respects_place _ _) (fun _ => respects_pure _) _ _ ⟨rfl, h⟩
  · refine respects_bind (respects_onSpool Spool.respects_readAll) (fun _ => respects_pure _) _ _
      ⟨rfl, h⟩

theorem respects_replace (path : String) (bytes : List UInt8) :
    (replace path bytes).Respects Twin := by
  refine respects_bind (respects_createTemporary _) fun temporary => ?_
  refine respects_tryCatch ?_ fun kind =>
    respects_bind (respects_change _) fun _ => respects_throw kind
  refine respects_when (respects_writeAt _ _ _) fun _ => ?_
  refine respects_bind Disk.respects_attempt fun _ => respects_bind (respects_mode? path) ?_
  intro mode
  split
  · exact respects_bind (respects_setMode _ _) fun _ => respects_rename _ _
  · exact respects_rename _ _

theorem bytes_congr (h : d'.tree = d.tree) (w : Writer) : w.bytes d' = w.bytes d := by
  unfold bytes bytesAt
  rw [h]

/-- **The digest on a willing disk**: it is that of the bytes, and the output goes on as it is. -/
theorem ends_digest_of_willing (w : Writer) (h : d.IsWilling) :
    digest.Ends (w, d)
      (fun hex s => (hex = Digest.sha1Hex (w.bytes d) ∧ s.1.site = w.site ∧ s.1.path = w.path ∧
        s.1.bytes d = w.bytes d) ∧ d.Twin s.2)
      fun _ _ => False := by
  refine ends_of_obliged (fun hex w' => hex = Digest.sha1Hex (w.bytes d) ∧
    w'.site = w.site ∧ w'.path = w.path ∧ w'.bytes d = w.bytes d) respects_digest leaves_digest h ?_
  refine (ends_digest w d.obliged).mono ?_ ?_
  · rintro hex t ⟨rfl, hat⟩ htree
    refine ⟨bytes_congr rfl w ▸ rfl, hat.carries.site, hat.carries.path, ?_⟩
    exact (bytes_congr htree t.1).symm.trans (hat.bytes.trans (bytes_congr rfl w))
  · rintro kind t ⟨_, hr⟩
    exact isObliging_obliged d kind hr

theorem ends_reread (w : Writer) (spool : Spool) (h : d.IsWilling) :
    (onSpool spool (Spool.seek (.start 0) >>= fun _ => Spool.readAll)).Ends (w, d)
      (fun bytes s => bytes = spool.bytes ∧ d.Twin s.2) fun _ _ => False :=
  ends_onSpool.mpr (Spool.ends_reread spool h)

/-- **Two outputs with the same bytes are committed alike**, wherever their positions are. -/
theorem alike_commit (hsite : w'.site = w.site) (hpath : w'.path = w.path)
    (hbytes : w'.bytes d' = w.bytes d) (h : d.Twin d') :
    Alike (fun s t => s.2.Twin t.2) commit (w, d) commit (w', d') := by
  unfold commit
  refine alike_get ?_
  dsimp only
  rw [hpath]
  rcases hw : w.backing with ⟨place, position⟩ | spool <;>
    rcases hw' : w'.backing with ⟨place', position'⟩ | spool'
  all_goals dsimp only
  · refine alike_bind (alike_within (Disk.respects_attempt d d' h) fun _ _ h => h) ?_
    exact fun _ s t h => respects_pure _ s t h
  · simp only [site, hw, hw'] at hsite
    cases hsite
  · simp only [site, hw, hw'] at hsite
    cases hsite
  · simp only [bytes, hw, hw'] at hbytes
    refine alike_bind_left (ends_reread w spool h.willing) ?_
    rintro bytes ⟨w₁, d₁⟩ ⟨rfl, h₁⟩
    refine alike_bind_right (ends_reread w' spool' h.other) ?_
    rintro bytes ⟨w₂, d₂⟩ ⟨rfl, h₂⟩
    rw [hbytes]
    have htwin : d₁.Twin d₂ := h₁.symm.trans (h.trans h₂)
    refine alike_bind (alike_within (respects_replace w.path spool.bytes d₁ d₂ htwin)
      fun _ _ h => h) ?_
    exact fun _ s t h => respects_pure _ s t h

end Writer

/-! ### Worlds -/

namespace World

variable {w w' w'' : World}

/-- **Two worlds that cannot be told apart**: their disks cannot, and everything else is equal. -/
structure Twin (w w' : World) : Prop where
  disk : w.disk.Twin w'.disk
  rest : w' = { w with disk := w'.disk }

theorem twin_of_disk {d d' : Disk} (w : World) (h : d.Twin d') :
    Twin { w with disk := d } { w with disk := d' } :=
  ⟨h, rfl⟩

theorem Twin.symm (h : w.Twin w') : w'.Twin w :=
  ⟨h.disk.symm, by rw [h.rest]⟩

theorem Twin.trans (h : w.Twin w') (h' : w'.Twin w'') : w.Twin w'' :=
  ⟨h.disk.trans h'.disk, by rw [h'.rest, h.rest]⟩

theorem Twin.net (h : w.Twin w') : w'.net = w.net := by
  rw [h.rest]

/-- Another disk on either side. -/
theorem Twin.onDisk {d d' : Disk} (h : w.Twin w') (hd : d.Twin d') :
    Twin { w with disk := d } { w' with disk := d' } :=
  ⟨hd, by rw [h.rest]⟩

end World

theorem Fetched.respects_onDisk {act : FileAct α} (h : act.Respects Twin) :
    (Fetched.onDisk act).Respects World.Twin :=
  fun _ _ ht => alike_within (h _ _ ht.disk) fun _ _ hd => ht.onDisk hd

theorem Fetched.respects_release (f : Fetched) : f.release.Respects World.Twin := by
  unfold release
  split
  · exact respects_onDisk (respects_change _)
  · exact respects_pure _

/-! ### Finished outputs -/

namespace Bench

variable {b b' b'' : Bench}

/-- **The same output in worlds that cannot be told apart**; its position may be another one. -/
structure Twin (b b' : Bench) : Prop where
  site : b'.1.site = b.1.site
  path : b'.1.path = b.1.path
  bytes : b'.bytes = b.bytes
  world : b.2.Twin b'.2

theorem Twin.symm (h : b.Twin b') : b'.Twin b :=
  ⟨h.site.symm, h.path.symm, h.bytes.symm, h.world.symm⟩

/-- The output in a world where nothing is ever refused. -/
def obliged (b : Bench) : Bench :=
  (b.1, { b.2 with disk := b.2.disk.obliged })

theorem twin_obliged (h : b.2.disk.IsWilling) : b.Twin b.obliged :=
  ⟨rfl, rfl, Writer.bytes_congr rfl b.1, b.2.twin_of_disk h.twin_obliged⟩

theorem ends_digest_of_willing (h : b.2.disk.IsWilling) :
    (onWriter Writer.digest).Ends b
      (fun hex b' => hex = Digest.sha1Hex b.bytes ∧ b.Twin b') fun _ _ => False := by
  rw [ends_onWriter]
  refine (Writer.ends_digest_of_willing b.1 h).mono ?_ fun _ _ hno => hno
  rintro hex s ⟨⟨rfl, hsite, hpath, hbytes⟩, ht⟩
  exact ⟨rfl, hsite, hpath, (Writer.bytes_congr ht.tree s.1).trans hbytes, b.2.twin_of_disk ht⟩

end Bench

namespace Job

variable {b b' : Bench}

theorem respects_attempt (message : String) (describe : IoKind → String) {act : FileAct Unit}
    (h : act.Respects Twin) : (attempt message describe act).Respects World.Twin := by
  refine respects_get fun w w' ht => ?_
  obtain ⟨hresult, hdisk⟩ := h w.disk w'.disk ht.disk
  dsimp only
  rw [hresult]
  exact ⟨rfl, hdisk, by rw [ht.rest]; rfl⟩

/-- **Two outputs with the same bytes are put into their place and dated alike.** -/
theorem alike_settle (job : Job) (h : b.Twin b') :
    Alike (fun b b' => b.2.Twin b'.2) job.settle b job.settle b' := by
  unfold settle
  refine alike_bind (alike_within (Writer.alike_commit h.site h.path h.bytes h.world.disk) ?_) ?_
  · exact fun s t hd => h.world.onDisk hd
  · intro path b b' h
    split
    · refine alike_bind (alike_within (respects_attempt _ _ (respects_setModified path _) _ _ h)
        fun _ _ hw => hw) ?_
      exact fun _ b b' h => respects_pure _ b b' h
    · exact respects_pure _ b b' h

end Job

end RangeSync
