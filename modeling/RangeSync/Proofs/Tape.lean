import RangeSync.Output.Integrity
import RangeSync.Proofs.Finish
import RangeSync.Proofs.Folder

/-!
# Outputs and tapes

An output is written into an open file, or it is collected in a spool that may move from memory to a
file at any write. None of this can be told from the outside. Both kinds of writer answer like a
`RangeSync.Tape`, a row of bytes with a cursor that knows nothing of files: what is written behind
the end makes it longer, gaps are zeros, and looking at the bytes does not change them.

The comparison is a simulation. One operation on a writer that mirrors a tape is answered as the
tape answers it, and leaves a writer that mirrors the tape that is left
(`RangeSync.Writer.Mirrors.step`); so the same is true of any row of operations, those included that
fail (`RangeSync.Writer.Mirrors.perform`). **Two writers that are opened with the same length
cannot be told apart**, and when they are committed, both leave the bytes of the tape at their paths
(`RangeSync.Writer.backends_agree`).

There is one exception to the last statement, and it is about paths. The path of a seed may pass
through the link at its own end. When the output takes the place of that link, the path is broken,
and the file cannot be read by it (`RangeSync.Writer.crossing_output_is_not_read`).
-/

namespace RangeSync

open Act Disk

/-! ### Operations on an output -/

namespace Writer

/-- An operation on an output. -/
inductive Op
  | write (data : List UInt8)
  | flush
  | seek (target : SeekFrom)
  | seekTo (offset : Nat)
  | digest
deriving DecidableEq, Repr

/-- What an operation answers. -/
inductive Reply
  | done
  | position (position : Nat)
  | digest (hex : String)
deriving DecidableEq, Repr

/-- The operation, as it is carried out. -/
def Op.act : Op → WriterAct Reply
  | .write data => do
    Writer.write data
    pure .done
  | .flush => do
    Writer.flush
    pure .done
  | .seek target => do
    let position ← Writer.seek target
    pure (.position position)
  | .seekTo offset => do
    Writer.seekTo offset
    pure .done
  | .digest => do
    let hex ← Writer.digest
    pure (.digest hex)

/-- Perform operations one after the other. One that fails is answered with its failure, and the
next one is performed all the same. -/
def perform : List Op → Writer × Disk → List (Except IoKind Reply) × (Writer × Disk)
  | [], s => ([], s)
  | op :: rest, s =>
    let (reply, s) := runOn op.act s
    let (replies, s) := perform rest s
    (reply :: replies, s)

end Writer

/-! ### Tapes -/

/-- A row of bytes with a cursor. -/
structure Tape where
  bytes : List UInt8
  cursor : Nat
deriving DecidableEq, Repr

namespace Tape

open Writer (Op Reply)

/-- A tape of zeros. -/
def zeros (length : Nat) : Tape :=
  ⟨List.replicate length 0, 0⟩

/-- The byte at an offset after data was written: one of the data, or the one that was there. There
are zeros behind the end. -/
def byteAfter (t : Tape) (data : List UInt8) (i : Nat) : UInt8 :=
  if t.cursor ≤ i ∧ i < t.cursor + data.length then data.getD (i - t.cursor) 0
  else t.bytes.getD i 0

/-- Write data at the cursor, which goes on behind them. Writing nothing does nothing. -/
def write (t : Tape) (data : List UInt8) : Tape :=
  if data = [] then t
  else
    { bytes :=
        (List.range (max t.bytes.length (t.cursor + data.length))).map (t.byteAfter data)
      cursor := t.cursor + data.length }

/-- What a tape does with an operation: its answer, and the tape that is left. -/
def step (t : Tape) : Op → Except IoKind Reply × Tape
  | .write data => (.ok .done, t.write data)
  | .flush => (.ok .done, t)
  | .seek target =>
    let goal := target.target t.cursor t.bytes.length
    if goal < 0 then (.error .invalidInput, t)
    else (.ok (.position goal.toNat), { t with cursor := goal.toNat })
  | .seekTo offset => (.ok .done, { t with cursor := offset })
  | .digest => (.ok (.digest (Digest.sha1Hex t.bytes)), { t with cursor := t.bytes.length })

/-- What a tape does with operations, one after the other. -/
def run (t : Tape) : List Op → List (Except IoKind Reply) × Tape
  | [] => ([], t)
  | op :: rest => ((t.step op).1 :: ((t.step op).2.run rest).1, ((t.step op).2.run rest).2)

/-- The operations lead to no position that a file does not have. -/
def InReach (t : Tape) : List Op → Prop
  | [] => True
  | op :: rest => (t.step op).2.cursor ≤ fileLimit ∧ (t.step op).2.InReach rest

instance InReach.decidable (t : Tape) : (ops : List Op) → Decidable (t.InReach ops)
  | [] => inferInstanceAs (Decidable True)
  | op :: rest =>
    have := InReach.decidable (t.step op).2 rest
    inferInstanceAs (Decidable (_ ∧ _))

variable {t : Tape} {data : List UInt8}

/-- **Writing on a tape lays the data over its bytes.** -/
theorem bytes_write (t : Tape) (data : List UInt8) :
    (t.write data).bytes = overlay t.bytes t.cursor data := by
  unfold write
  split
  · rename_i hempty
    rw [hempty, overlay_nil]
  · rename_i hsome
    rw [overlay_of_ne_nil hsome]
    -- both sides are told apart by where the offset lies: before, inside of or behind the data
    refine List.ext_getElem? fun i => ?_
    simp only [List.getElem?_map, List.getElem?_append, List.length_append,
      List.length_take, List.length_replicate, List.getElem?_take, List.getElem?_drop,
      List.getElem?_replicate]
    grind [byteAfter]

theorem cursor_write (t : Tape) (data : List UInt8) :
    (t.write data).cursor = t.cursor + data.length := by
  unfold write
  split
  · rename_i hempty
    rw [hempty, List.length_nil, Nat.add_zero]
  · rfl

end Tape

/-! ### The simulation -/

namespace Writer

variable {s s' : Writer × Disk} {t : Tape} {ops : List Op}

/-- **The output mirrors a tape**: it has the bytes and the position, and nothing is refused. -/
structure Mirrors (s : Writer × Disk) (t : Tape) : Prop where
  isOpen : s.1.IsOpen s.2.tree
  obliging : s.2.IsObliging
  bytes : s.1.bytes s.2 = t.bytes
  position : s.1.position = t.cursor
  reach : t.cursor ≤ fileLimit

/-- An output that goes on with other bytes mirrors another tape. -/
theorem Mirrors.of_hasAt (h : Mirrors s t) {t' : Tape} (h' : HasAt s t'.bytes t'.cursor s')
    (hreach : t'.cursor ≤ fileLimit) : Mirrors s' t' :=
  ⟨h'.carries.isOpen h.isOpen, h.obliging.congr h'.carries.disk.refuses, h'.bytes, h'.position,
    hreach⟩

/-- The output goes on as the same one, and mirrors a tape. -/
def Continues (s : Writer × Disk) (t : Tape) (s' : Writer × Disk) : Prop :=
  Carries s s' ∧ Mirrors s' t

/-- **One operation is answered as the tape answers it**, and leaves the output as it leaves the
tape. -/
theorem Mirrors.step (h : Mirrors s t) (op : Op) (hreach : (t.step op).2.cursor ≤ fileLimit) :
    op.act.Ends s
      (fun reply s' => (t.step op).1 = .ok reply ∧ Continues s (t.step op).2 s')
      fun kind s' => (t.step op).1 = .error kind ∧ Continues s (t.step op).2 s' := by
  obtain ⟨w, d⟩ := s
  have hbytes : w.bytes d = t.bytes := h.bytes
  have hposition : w.position = t.cursor := h.position
  cases op with
  | write data =>
    unfold Op.act
    rw [ends_bind]
    refine (ends_write h.isOpen data).mono ?_ ?_
    · intro _ s' h'
      rw [hbytes, hposition, ← Tape.bytes_write, ← Tape.cursor_write] at h'
      exact ⟨rfl, h'.carries, h.of_hasAt h' hreach⟩
    · rintro kind s' ⟨_, hr | hfar⟩
      · exact (h.obliging kind hr).elim
      · rw [hposition] at hfar
        exact absurd h.reach (Nat.not_le_of_lt hfar)
  | flush => exact ⟨rfl, Carries.refl _, h⟩
  | seek target =>
    unfold Op.act
    rw [ends_bind]
    refine (ends_seek w d target).mono ?_ ?_
    · rintro a s' ⟨ha, h'⟩
      rw [hbytes, hposition] at ha
      rw [hbytes] at h'
      have hstep : t.step (.seek target) = (.ok (.position a), { t with cursor := a }) := by
        simp [Tape.step, ha]
      rw [hstep] at hreach ⊢
      exact ⟨rfl, h'.carries, h.of_hasAt h' hreach⟩
    · rintro kind s' ⟨h', hr | ⟨rfl, hnone⟩⟩
      · exact (h.obliging kind hr).elim
      · -- a move that leads nowhere leads to a place before the start
        rw [hbytes, hposition] at hnone
        rw [hbytes, hposition] at h'
        have hstep : t.step (.seek target) = (.error .invalidInput, t) := by
          unfold SeekFrom.within? at hnone
          unfold Tape.step at hreach ⊢
          dsimp only at hnone hreach ⊢
          split at hnone
          · cases hnone
          · rename_i hout
            split
            · rfl
            · rename_i hgoal
              rw [if_neg hgoal] at hreach
              dsimp only at hreach
              omega
        rw [hstep] at hreach ⊢
        exact ⟨rfl, h'.carries, h.of_hasAt h' hreach⟩
  | seekTo offset =>
    unfold Op.act
    rw [ends_bind]
    refine (ends_seekTo w d offset).mono ?_ ?_
    · intro _ s' h'
      rw [hbytes] at h'
      exact ⟨rfl, h'.carries, h.of_hasAt h' hreach⟩
    · rintro kind s' ⟨_, hr | hfar⟩
      · exact (h.obliging kind hr).elim
      · exact absurd hreach (Nat.not_le_of_lt hfar)
  | digest =>
    unfold Op.act
    rw [ends_bind]
    refine (ends_digest w d).mono ?_ ?_
    · rintro hex s' ⟨rfl, h'⟩
      rw [hbytes] at h' ⊢
      exact ⟨rfl, h'.carries, h.of_hasAt h' hreach⟩
    · rintro kind s' ⟨_, hr⟩
      exact (h.obliging kind hr).elim

/-- **Any row of operations is answered as the tape answers it.** -/
theorem Mirrors.perform (h : Mirrors s t) (hreach : t.InReach ops) :
    (perform ops s).1 = (t.run ops).1 ∧ Continues s (t.run ops).2 (perform ops s).2 := by
  induction ops generalizing s t with
  | nil => exact ⟨rfl, Carries.refl s, h⟩
  | cons op rest ih =>
    obtain ⟨hfirst, hrest⟩ := hreach
    -- an operation that fails goes on like one that does not
    have hnext {reply : Except IoKind Reply} {s' : Writer × Disk}
        (hrun : runOn op.act s = (reply, s')) (hreply : (t.step op).1 = reply)
        (h' : Continues s (t.step op).2 s') :
        (Writer.perform (op :: rest) s).1 = (t.run (op :: rest)).1 ∧
          Continues s (t.run (op :: rest)).2 (Writer.perform (op :: rest) s).2 := by
      obtain ⟨hreplies, hc, hm⟩ := ih h'.2 hrest
      simp only [Writer.perform, Tape.run, hrun, hreply, hreplies, true_and]
      exact ⟨h'.1.trans hc, hm⟩
    have hstep := h.step op hfirst
    rcases hrun : runOn op.act s with ⟨kind | reply, s'⟩
    · obtain ⟨hreply, h'⟩ := hstep.of_error hrun
      exact hnext hrun hreply h'
    · obtain ⟨hreply, h'⟩ := hstep.of_ok hrun
      exact hnext hrun hreply h'

end Writer

/-- The digest of a file can be computed if nothing is refused. -/
theorem Integrity.ends_digestOf {d : Disk} {path : String} {place : Location} {bytes : List UInt8}
    (hobliging : d.IsObliging) (h : d.FileAt path place bytes) :
    (digestOf path).Ends d (fun hex _ => hex = Digest.sha1Hex bytes) fun _ _ => False := by
  unfold digestOf
  rw [ends_bind]
  refine (ends_contents d path).mono ?_ ?_
  · rintro content d' ⟨_, place', e, hw, rfl⟩
    obtain ⟨rfl, -⟩ := h.eq_of_walk hw
    exact congrArg Digest.sha1Hex h.bytesAt
  · rintro kind d' ⟨_, hr | hr⟩
    · exact hobliging kind hr
    · exact hr place bytes h

/-- The digest of a file that is missed cannot be computed, for the reason for which it is
missed. -/
theorem Integrity.ends_digestOf_of_missing {d : Disk} {path : String} {reason : IoKind}
    (hobliging : d.IsObliging) (h : d.missing? path = some reason) :
    (digestOf path).Ends d (fun _ _ => False) fun kind _ => kind = reason := by
  unfold digestOf contents
  rw [ends_bind, ends_bind]
  refine (ends_openForReading d path).mono ?_ ?_
  · rintro place d' ⟨_, e, hw⟩
    exact absurd hw (not_taken_of_missing h)
  · rintro kind d' ⟨_, hr | hmissing⟩
    · exact (hobliging kind hr).elim
    · exact Option.some.inj (hmissing.symm.trans h)

namespace Writer

variable {s s' : Writer × Disk} {t : Tape} {ops : List Op} {d : Disk} {path seed : String}
  {length : UInt64} {limit : Nat}

/-! ### Opening and committing -/

/-- **The output can be published**: a commit answers with the path, which leads to a file with
these bytes then, and so the digest of that file is theirs. -/
def Publishes (s : Writer × Disk) (path : String) (bytes : List UInt8) : Prop :=
  commit.Ends s
    (fun answer s' => answer = path ∧ (∃ place, s'.2.FileAt path place bytes) ∧
      (Integrity.digestOf path).Ends s'.2 (fun hex _ => hex = Digest.sha1Hex bytes)
        fun _ _ => False)
    fun _ _ => False

/-- A staged output starts as a tape of zeros. -/
theorem ends_openAt_mirrors_of_staged (hobliging : d.IsObliging)
    (hlength : length.toNat ≤ fileLimit) :
    (openAt .replaceSeed seed length limit).Ends d
      (fun w d' => Mirrors (w, d') (.zeros length.toNat) ∧ w.site = none ∧ w.path = seed ∧
        d.Kept d')
      fun _ _ => False := by
  refine (ends_openAt_replaceSeed d seed length limit).mono ?_ ?_
  · rintro w d' ⟨hk, hsite, hpath, _, hposition, hbytes⟩
    refine ⟨⟨?_, hobliging.congr hk.refuses, hbytes, hposition, Nat.zero_le _⟩, hsite, hpath, hk⟩
    intro place hplace
    cases hsite.symm.trans hplace
  · rintro kind d' ⟨_, hr | hlong⟩
    · exact hobliging kind hr
    · exact absurd hlength (Nat.not_le_of_lt hlong)

/-- An output of its own starts as a tape of zeros, in the file that its path leads to. -/
theorem ends_openAt_mirrors_of_file (hobliging : d.IsObliging)
    (hlength : length.toNat ≤ fileLimit) (hcan : d.CanCreate path) :
    (openAt (.file path) seed length limit).Ends d
      (fun w d' => Mirrors (w, d') (.zeros length.toNat) ∧ w.path = path ∧
        ∃ s, d.tree.walk d.cwd true path = .ok s ∧ s.IsOpen ∧ w.site = some s.place ∧
          Along (Tree.SameOff s.place d.tree) d d')
      fun _ _ => False := by
  refine (ends_openAt_file d path seed length limit).mono ?_ ?_
  · rintro w d' ⟨s, hw, hs, _, rfl, hget, halong⟩
    refine ⟨⟨?_, hobliging.congr halong.refuses, bytesAt_eq hget, rfl, Nat.zero_le _⟩, rfl, s, hw,
      hs, rfl, halong⟩
    intro place hplace
    cases hplace
    exact ⟨_, _, _, hget⟩
  · rintro kind d' (⟨_, hr | hno⟩ | ⟨_, _, _, _, halong, hr | hlong⟩)
    · exact hobliging kind hr
    · exact hno hcan
    · exact hobliging kind (hr.refuses halong.refuses)
    · exact absurd hlength (Nat.not_le_of_lt hlong)

/-- **A staged output is published** at the path of the seed, unless that retraces its end. -/
theorem Mirrors.publishes_of_staged (h : Mirrors s t) (hsite : s.1.site = none)
    (hpath : s.1.path = seed) (hspares : Spares d s.2) (hcan : CanSupplant d seed)
    (hr : ¬ d.tree.Retraces d.cwd seed) : Publishes s seed t.bytes := by
  obtain ⟨w, d₁⟩ := s
  subst hpath
  refine (ends_commit_of_staged hsite d₁).mono ?_ ?_
  · rintro answer s' ⟨rfl, hcommits⟩
    have hsince := hspares.commits hcommits
    obtain ⟨place, mode, time, hw⟩ := hsince.1.walk_of_not_retraces hr
    rw [← hsince.2.cwd, show w.bytes d₁ = t.bytes from h.bytes] at hw
    have hfile : s'.2.FileAt w.path place t.bytes := ⟨mode, time, hw⟩
    exact ⟨rfl, ⟨place, hfile⟩,
      Integrity.ends_digestOf (h.obliging.congr hcommits.2.refuses) hfile⟩
  · rintro kind s' ⟨_, hrefused | hno⟩
    · exact h.obliging kind hrefused
    · exact hno (hcan.of_spares hspares)

/-- **An output of its own is published** where it is. -/
theorem Mirrors.publishes_of_file (h : Mirrors s t) {spot : Spot}
    (hw : d.tree.walk d.cwd true path = .ok spot) (hopen : spot.IsOpen)
    (hsite : s.1.site = some spot.place) (hpath : s.1.path = path)
    (halong : Along (Tree.SameOff spot.place d.tree) d s.2) : Publishes s path t.bytes := by
  obtain ⟨w, d₁⟩ := s
  subst hpath
  obtain ⟨content, mode, time, hget⟩ := h.isOpen spot.place hsite
  have hbytes : content = t.bytes := by
    rw [← h.bytes, bytes_of_site hsite]
    exact (bytesAt_eq hget).symm
  have hfound := Tree.walk_refilled hw hopen (halong.tree (Tree.SameOff.refl _ _)) hget
  rw [hbytes, ← halong.cwd] at hfound
  refine (ends_commit_of_site hsite d₁).mono ?_ ?_
  · rintro answer ⟨w', d'⟩ ⟨rfl, rfl, hk⟩
    have hfile : d'.FileAt w'.path spot.place t.bytes :=
      ⟨mode, time, by rw [hk.tree, hk.cwd]; exact hfound⟩
    exact ⟨rfl, ⟨spot.place, hfile⟩, Integrity.ends_digestOf (h.obliging.congr hk.refuses) hfile⟩
  · rintro kind s' ⟨_, hk, hr⟩
    exact h.obliging kind (hr.refuses hk.refuses)

end Writer

/-! ### The last digest -/

namespace Tape

open Writer (Op)

variable {t : Tape} {before after : List Op} {op : Op}

theorem run_append (t : Tape) (before after : List Op) :
    t.run (before ++ after) =
      ((t.run before).1 ++ ((t.run before).2.run after).1, ((t.run before).2.run after).2) := by
  induction before generalizing t with
  | nil => rfl
  | cons op rest ih => simp only [List.cons_append, run, ih]

theorem length_replies (t : Tape) (ops : List Op) : (t.run ops).1.length = ops.length := by
  induction ops generalizing t with
  | nil => rfl
  | cons op rest ih => simp only [run, List.length_cons, ih]

/-- Nothing but writing changes the bytes. -/
theorem bytes_step (h : ∀ data, op ≠ .write data) : (t.step op).2.bytes = t.bytes := by
  cases op with
  | write data => exact absurd rfl (h data)
  | flush | seekTo | digest => rfl
  | seek target =>
    unfold step
    dsimp only
    split <;> rfl

theorem bytes_run (h : ∀ op ∈ after, ∀ data, op ≠ .write data) :
    (t.run after).2.bytes = t.bytes := by
  induction after generalizing t with
  | nil => rfl
  | cons op rest ih =>
    rw [run, ih fun op' hop' => h op' (List.mem_cons_of_mem _ hop'),
      bytes_step (h op List.mem_cons_self)]

/-- **A digest that nothing is written after is the digest of what is there in the end.** -/
theorem last_digest (t : Tape) (h : ∀ op ∈ after, ∀ data, op ≠ .write data) :
    (t.run (before ++ .digest :: after)).1[before.length]? =
      some (.ok (.digest (Digest.sha1Hex (t.run (before ++ .digest :: after)).2.bytes))) := by
  have hbytes : (t.run (before ++ .digest :: after)).2.bytes = (t.run before).2.bytes := by
    rw [run_append]
    change ((t.run before).2.run (.digest :: after)).2.bytes = _
    rw [run, bytes_run h]
    rfl
  rw [hbytes, run_append, List.getElem?_append_right (Nat.le_of_eq (length_replies t before)),
    length_replies, Nat.sub_self]
  rfl

end Tape

namespace Writer

variable {ops : List Op} {path seed : String} {length : UInt64} {limit : Nat}

/-! ### Both kinds of outputs -/

/-- **The two kinds of outputs cannot be told apart.** A staged output and one of its own that are
opened with the same length answer a row of operations alike, at every step, and as a tape of so
many zeros answers it, however soon the staged one moves to a file. When they are committed, their
paths lead to files with the bytes of the tape. The digest of such a file is the last one that was
asked for, if nothing was written after it.

The path of the seed may not retrace its end, since it leads nowhere when that is replaced. -/
theorem backends_agree {d d' : Disk} (length : UInt64) (limit : Nat) (ops : List Op)
    (seed path : String) (hlength : length.toNat ≤ fileLimit)
    (hreach : (Tape.zeros length.toNat).InReach ops) (hobliging : d.IsObliging)
    (hobliging' : d'.IsObliging) (hsupplant : CanSupplant d seed) (hcreate : d'.CanCreate path)
    (hr : ¬ d.tree.Retraces d.cwd seed) :
    ∃ staged d₁ direct d₁',
      runOn (openAt .replaceSeed seed length limit) d = (.ok staged, d₁) ∧
      runOn (openAt (.file path) seed length limit) d' = (.ok direct, d₁') ∧
      (perform ops (staged, d₁)).1 = (perform ops (direct, d₁')).1 ∧
      (perform ops (direct, d₁')).1 = ((Tape.zeros length.toNat).run ops).1 ∧
      Publishes (perform ops (staged, d₁)).2 seed ((Tape.zeros length.toNat).run ops).2.bytes ∧
      Publishes (perform ops (direct, d₁')).2 path ((Tape.zeros length.toNat).run ops).2.bytes ∧
      ∀ before after, ops = before ++ .digest :: after →
        (∀ op ∈ after, ∀ data, op ≠ .write data) →
        (perform ops (direct, d₁')).1[before.length]? = some (.ok (.digest
          (Digest.sha1Hex ((Tape.zeros length.toNat).run ops).2.bytes))) := by
  obtain ⟨staged, d₁, hstaged, hmirrors, hsite, hpath, hk⟩ :=
    (@ends_openAt_mirrors_of_staged d seed length limit hobliging hlength).exists_ok
  obtain ⟨direct, d₁', hdirect, hmirrors', hpath', spot, hw, hopen, hsite', halong⟩ :=
    (@ends_openAt_mirrors_of_file d' path seed length limit hobliging' hlength hcreate).exists_ok
  obtain ⟨hreplies, hc, hm⟩ := hmirrors.perform hreach
  obtain ⟨hreplies', hc', hm'⟩ := hmirrors'.perform hreach
  refine ⟨staged, d₁, direct, d₁', hstaged, hdirect, hreplies.trans hreplies'.symm, hreplies',
    ?_, ?_, ?_⟩
  · -- nothing of the tree was touched until the commit
    have hedits := hc.disk
    rw [hsite] at hedits
    exact hm.publishes_of_staged (hc.site.trans hsite) (hc.path.trans hpath)
      ((spares_of_kept hk).trans (spares_of_edits hedits)) hsupplant hr
  · have hoff := halong.tree (Tree.SameOff.refl _ _)
    refine hm'.publishes_of_file hw hopen (hc'.site.trans hsite') (hc'.path.trans hpath')
      (halong.trans (hc'.disk.mono fun tree ht => ?_))
    rw [hsite'] at ht
    exact hoff.trans ht.sameOff
  · rintro before after rfl hnone
    rw [hreplies']
    exact Tape.last_digest _ hnone

/-- A disk with a seed. -/
def oneSeed : Disk :=
  .ofTree [] ⟨[(["seed"], .file [97, 98, 99] defaultMode none)]⟩

/-- Operations that write behind the end, fail, and look twice. -/
def scribbling : List Op :=
  [.seek (.fromEnd 2), .write [1, 2], .digest, .seek (.current (-8)), .seekTo 1, .write [3], .digest]

/-- The staged output moves to a file at once, and a move before the start fails. -/
theorem backends_agree_scribbling :
    ∃ staged d₁ direct d₁',
      runOn (openAt .replaceSeed "/seed" 3 0) oneSeed = (.ok staged, d₁) ∧
      runOn (openAt (.file "/out") "/seed" 3 0) oneSeed = (.ok direct, d₁') ∧
      (perform scribbling (staged, d₁)).1 = (perform scribbling (direct, d₁')).1 ∧
      (perform scribbling (direct, d₁')).1[3]? = some (.error .invalidInput) ∧
      Publishes (perform scribbling (staged, d₁)).2 "/seed" [0, 3, 0, 0, 0, 1, 2] ∧
      Publishes (perform scribbling (direct, d₁')).2 "/out" [0, 3, 0, 0, 0, 1, 2] := by
  have hseed : oneSeed.tree.walk [] true "/seed" =
      .ok (.taken ["seed"] (.file [97, 98, 99] defaultMode none)) :=
    Tree.walk_of_name (by decide) (by decide) (by decide) rfl
  have hout : oneSeed.tree.walk [] true "/out" = .ok (.vacant [] "out") :=
    Tree.walk_of_new_name (by decide) (by decide) (by decide) rfl
  obtain ⟨staged, d₁, direct, d₁', hstaged, hdirect, hsame, htape, hpublished, hpublished', _⟩ :=
    backends_agree 3 0 scribbling "/seed" "/out" (by decide) (by decide)
      (isObliging_ofTree _ _) (isObliging_ofTree _ _) (canSupplant_of_walk hseed trivial)
      ⟨by decide, _, hout, trivial⟩ (Tree.not_retraces_of_file hseed trivial)
  refine ⟨staged, d₁, direct, d₁', hstaged, hdirect, hsame, ?_, hpublished, hpublished'⟩
  rw [htape]
  rfl

/-- A disk with a folder and a link to it. -/
def crossed : Disk :=
  .ofTree [] ⟨[(["d"], .folder), (["l"], .link "d")]⟩

/-- **Without the condition on paths the statement fails**: the commit answers, and the digest of
the file at the answer cannot be computed, because the path leads nowhere. -/
theorem crossing_output_is_not_read :
    crossed.IsObliging ∧ CanSupplant crossed Path.crossing ∧
      ∃ staged d₁ s d₂, runOn (openAt .replaceSeed Path.crossing 0 0) crossed = (.ok staged, d₁) ∧
        runOn commit (perform [.digest] (staged, d₁)).2 = (.ok Path.crossing, s) ∧
        runOn (Integrity.digestOf Path.crossing) s.2 = (.error .notADirectory, d₂) := by
  have hcrossed : crossed.tree.IsCrossed := ⟨rfl, rfl⟩
  have hobliging : crossed.IsObliging := isObliging_ofTree _ _
  have hcan : CanSupplant crossed Path.crossing := canSupplant_crossing hcrossed
  obtain ⟨staged, d₁, hstaged, hmirrors, hsite, hpath, hk⟩ :=
    (@ends_openAt_mirrors_of_staged crossed Path.crossing 0 0 hobliging (by decide)).exists_ok
  have hreach : (Tape.zeros (0 : UInt64).toNat).InReach [.digest] := ⟨by decide, trivial⟩
  obtain ⟨_, hc, hm⟩ := hmirrors.perform hreach
  have hedits := hc.disk
  rw [hsite] at hedits
  have hspares := (spares_of_kept hk).trans (spares_of_edits hedits)
  have hcommit := ends_commit_of_staged (hc.site.trans hsite) (perform [.digest] (staged, d₁)).2.2
  rw [hc.path.trans hpath] at hcommit
  obtain ⟨answer, s, hrun, rfl, hcommits⟩ := (hcommit.mono (fun _ _ h => h)
    fun kind _ ⟨_, hr⟩ => hr.elim (hm.obliging kind) fun hno => hno (hcan.of_spares hspares)).exists_ok
  have hsince := hspares.commits hcommits
  have hmissing : s.2.missing? Path.crossing = some .notADirectory := by
    rw [missing?, hsince.2.cwd, hsince.1.walk_of_retraces hcrossed.retraces]
  obtain ⟨_, d₂, hdigest, rfl⟩ := (Integrity.ends_digestOf_of_missing
    (hobliging.congr hsince.2.refuses) hmissing).exists_error
  exact ⟨hobliging, hcan, staged, d₁, s, d₂, hstaged, hrun, hdigest⟩

end Writer

end RangeSync
