import RangeSync.Proofs.Run

/-!
# What a failed run leaves at the path of its output

A run with an output of its own writes into the file that the path leads to. If the run fails, that
file should be as it was, or be gone; a file with some of the bytes should never stay behind.

**This is so except in four cases** (`RangeSync.Job.leaves_no_partial_output`), and each of them
says what stays behind (`RangeSync.Job.LeavesBehind`):

* the file was emptied, and then its length could not be set, for instance because no file can be
  that long;
* the path ends at a link: the link is removed, and the file behind it keeps what was written;
* the number of reused bytes leaves its 64 bits;
* the system refuses to read the complete output back, or to make it durable.

A run may as well keep an output that it means to keep, or be kept from removing it
(`RangeSync.Job.KeepsOutput`). The seed is safe in any case, unless the path leads to it.
-/

namespace RangeSync

open Act Disk

/-! ### The file at the path -/

namespace Disk

variable {d d' : Disk} {path : String} {bytes : List UInt8}

/-- **The file that the path led to has these bytes**, and nothing else is different. -/
def Written (d : Disk) (path : String) (bytes : List UInt8) (d' : Disk) : Prop :=
  ∃ s mode time, d.tree.walk d.cwd true path = .ok s ∧ s.IsOpen ∧
    d'.tree.get? s.place = some (.file bytes mode time) ∧ Tree.SameOff s.place d.tree d'.tree

/-- **The file that the path led to is gone**, the path leads to nothing, and nothing else is
different. -/
def Removed (d : Disk) (path : String) (d' : Disk) : Prop :=
  ∃ s folder name, d.tree.walk d.cwd true path = .ok s ∧ s.IsOpen ∧
    d'.tree.get? s.place = none ∧ Tree.SameOff s.place d.tree d'.tree ∧
    d'.tree.walk d.cwd true path = .ok (.vacant folder name)

/-- **The link that the path ends at is gone**, the file behind it has these bytes, and nothing else
is different. -/
def Unlinked (d : Disk) (path : String) (bytes : List UInt8) (d' : Disk) : Prop :=
  ∃ s link target mode time, d.tree.walk d.cwd true path = .ok s ∧ s.IsOpen ∧
    d.tree.walk d.cwd false path = .ok (.taken link (.link target)) ∧
    d'.tree.get? link = none ∧ d'.tree.get? s.place = some (.file bytes mode time) ∧
    ∀ other, other ≠ s.place → other ≠ link → d'.tree.get? other = d.tree.get? other

/-- A file is still found at its path, if the other path does not lead to it. -/
def Spares (d : Disk) (path other : String) (d' : Disk) : Prop :=
  ∀ place content, d.FileAt path place content →
    (∀ s, d.tree.walk d.cwd true other = .ok s → s.place ≠ place) → d'.FileAt path place content

theorem Spares.trans_kept {d'' : Disk} {other : String} (h : d.Spares path other d')
    (hk : d'.Kept d'') : d.Spares path other d'' := by
  intro place content hfile hne
  have hfile' := h place content hfile hne
  rwa [FileAt, ← hk.tree, ← hk.cwd] at hfile'

theorem spares_of_kept (hk : d.Kept d') (path other : String) : d.Spares path other d' := by
  intro place content hfile _
  rwa [FileAt, hk.tree, hk.cwd]

/-- Writing into the file of one path leaves the file of another path alone. -/
theorem spares_of_sameOff {s : Spot} {other : String} (hw : d.tree.walk d.cwd true other = .ok s)
    (hs : s.IsOpen) (hoff : Tree.SameOff s.place d.tree d'.tree) (hcwd : d'.cwd = d.cwd) :
    d.Spares path other d' := by
  rintro place content ⟨mode, time, hfile⟩ hne
  refine ⟨mode, time, ?_⟩
  rw [hcwd]
  exact Tree.walk_apart hfile hw hs hw hs (hne s hw) hoff

end Disk

namespace Job

variable {job : Job} {w w' : World} {b b' : Bench} {out : String} {s : Spot}

/-! ### Giving up an output -/

/-- **An output that is being written**: the file at the end of its path has its bytes, and nothing
else is different. -/
structure Writes (w : World) (out : String) (s : Spot) (b : Bench) : Prop where
  walk : w.disk.tree.walk w.disk.cwd true out = .ok s
  isOpen : s.IsOpen
  path : b.1.path = out
  leads : LeadsTo b s.place
  off : Tree.SameOff s.place w.disk.tree b.2.disk.tree
  cwd : b.2.disk.cwd = w.disk.cwd
  refuses : b.2.disk.refuses = w.disk.refuses

theorem Opens.writes (h : job.Opens w b) (hdest : job.destination = .file out)
    (hc : Bench.Carries b b') : ∃ s, Writes w out s b' := by
  obtain ⟨s, hw, hs, hpath, hleads, halong⟩ := h.leadsTo hdest hc
  exact ⟨s, hw, hs, hpath, hleads, halong.tree (Tree.SameOff.refl _ _), halong.cwd,
    halong.refuses⟩

/-- The file of the output. -/
theorem Writes.get? (h : Writes w out s b) :
    ∃ mode time, b.2.disk.tree.get? s.place = some (.file b.bytes mode time) := by
  obtain ⟨_, mode, time, hw⟩ := h.leads
  exact ⟨mode, time, Tree.get?_of_walk hw trivial⟩

theorem Writes.written (h : Writes w out s b) : w.disk.Written out b.bytes b.2.disk := by
  obtain ⟨mode, time, hget⟩ := h.get?
  exact ⟨s, mode, time, h.walk, h.isOpen, hget, h.off⟩

theorem Writes.spares (h : Writes w out s b) (seed : String) :
    w.disk.Spares seed out b.2.disk :=
  spares_of_sameOff h.walk h.isOpen h.off h.cwd

/-- Where the path ended before the run, if not at the file. -/
theorem Writes.link_before (h : Writes w out s b) {link : Location} {target : String}
    (hlink : b.2.disk.tree.walk w.disk.cwd false out = .ok (.taken link (.link target))) :
    w.disk.tree.walk w.disk.cwd false out = .ok (.taken link (.link target)) := by
  obtain ⟨mode, time, hget⟩ := h.get?
  have hlinked : b.2.disk.tree.get? link = some (.link target) :=
    Tree.get?_of_walk hlink trivial
  refine Tree.walk_past hlink (Tree.ne_nil_of_file hget) (Or.inr ⟨_, mode, time, hget⟩) ?_ ?_
  · intro heq
    change link = s.place at heq
    rw [heq, hget] at hlinked
    cases hlinked
  · intro other ho
    exact (h.off other ho).symm

/-- While an output is written, its path leads to it. -/
theorem Writes.followed (h : Writes w out s b) :
    ∃ mode time, b.2.disk.tree.walk b.2.disk.cwd true out =
      .ok (.taken s.place (.file b.bytes mode time)) := by
  obtain ⟨_, mode, time, hw⟩ := h.leads
  rw [h.path] at hw
  exact ⟨mode, time, hw⟩

/-- The file is removed if the path ends at it. -/
theorem Writes.removed {d : Disk} (h : Writes w out s b)
    (ht : b.2.disk.Turned (b.2.disk.tree.erase s.place) d) (seed : String) :
    w.disk.Spares seed out d ∧ w.disk.Removed out d := by
  have hoff : Tree.SameOff s.place w.disk.tree d.tree := by
    rw [ht.tree]
    exact h.off.trans (Tree.sameOff_erase _ _)
  have hnone : d.tree.get? s.place = none := by
    obtain ⟨mode, time, hget⟩ := h.get?
    rw [ht.tree]
    exact Tree.get?_erase_self (Tree.ne_nil_of_file hget)
  obtain ⟨folder, name, _, hvacant⟩ := Tree.walk_removed h.walk h.isOpen hoff hnone
  constructor
  · exact spares_of_sameOff h.walk h.isOpen hoff (ht.cwd.trans h.cwd)
  · exact ⟨s, folder, name, h.walk, h.isOpen, hnone, hoff, hvacant⟩

/-- Only the link is removed if the path ends at one. -/
theorem Writes.unlinked {d : Disk} {link : Location} {target : String} (h : Writes w out s b)
    (hlink : b.2.disk.tree.walk b.2.disk.cwd false out = .ok (.taken link (.link target)))
    (ht : b.2.disk.Turned (b.2.disk.tree.erase link) d) (seed : String) :
    w.disk.Spares seed out d ∧ w.disk.Unlinked out b.bytes d := by
  obtain ⟨mode, time, hget⟩ := h.get?
  have hlinked : b.2.disk.tree.get? link = some (.link target) :=
    Tree.get?_of_walk hlink trivial
  have hplace : s.place ≠ link := by
    intro heq
    rw [heq, hlinked] at hget
    cases hget
  constructor
  · intro place content hfile hapart
    obtain ⟨mode', time', hseed⟩ := h.spares seed place content hfile hapart
    obtain ⟨_, _, hfollow⟩ := h.followed
    refine ⟨mode', time', ?_⟩
    rw [ht.cwd]
    -- the link leads to the output, and so the path of the seed does not come by it
    refine Tree.walk_apart hseed hlink trivial hfollow trivial (hapart s h.walk) ?_
    rw [ht.tree]
    exact Tree.sameOff_erase _ _
  · have hbefore := h.link_before (h.cwd ▸ hlink)
    refine ⟨s, link, target, mode, time, h.walk, h.isOpen, hbefore, ?_, ?_, ?_⟩
    · rw [ht.tree]
      exact Tree.get?_erase_self ((Tree.leads_of_walk hlink).place_ne_nil trivial)
    · rw [ht.tree, Tree.get?_erase_of_ne hplace]
      exact hget
    · intro other ho ho'
      rw [ht.tree, Tree.get?_erase_of_ne ho', h.off other ho]

/-- **What an output that is given up leaves**: nothing; or, if the path ends at a link, the file
behind it; or, if the system refuses to remove it, the file. -/
def GivenUp (d : Disk) (out : String) (bytes : List UInt8) (d' : Disk) : Prop :=
  d.Removed out d' ∨ d.Unlinked out bytes d' ∨ d.Written out bytes d' ∧ ∃ kind, d'.Halted kind

theorem Writes.discarded (h : Writes w out s b) (seed : String) :
    w.disk.Spares seed out b.discarded.disk ∧ GivenUp w.disk out b.bytes b.discarded.disk := by
  obtain ⟨mode, time, hfollow⟩ := h.followed
  have hends : (remove out).Ends b.2.disk
      (fun _ d => w.disk.Spares seed out d ∧ GivenUp w.disk out b.bytes d)
      fun _ d => w.disk.Spares seed out d ∧ GivenUp w.disk out b.bytes d := by
    refine (ends_remove b.2.disk out).mono ?_ ?_
    · rintro _ d ⟨place, e, hw, _, ht⟩
      -- the path is not followed when it is removed: either it ends at the file or at a link
      rcases Tree.walk_follow hfollow with hlast | ⟨link, target, hlink⟩
      · obtain ⟨rfl, _⟩ := Spot.taken.inj (Except.ok.inj (hw.symm.trans hlast))
        exact (h.removed ht seed).imp_right Or.inl
      · obtain ⟨rfl, _⟩ := Spot.taken.inj (Except.ok.inj (hw.symm.trans hlink))
        exact (h.unlinked hlink ht seed).imp_right fun hu => Or.inr (Or.inl hu)
    · rintro kind d ⟨hk, hr⟩
      obtain ⟨mode', time', hget⟩ := h.get?
      refine ⟨(h.spares seed).trans_kept hk, Or.inr (Or.inr ⟨?_, kind, ?_⟩)⟩
      · refine ⟨s, mode', time', h.walk, h.isOpen, ?_, ?_⟩
        · rw [hk.tree]
          exact hget
        · rw [hk.tree]
          exact h.off
      · rcases hr with hr | hr
        · exact hr
        · -- there is something to be removed, so it was refused
          exact absurd (canRemove_of_walk hfollow nofun) hr
  have hdiscard : b.1.discard = remove out := by
    rw [Writer.discard_of_site h.leads.1, h.path]
  rw [← hdiscard] at hends
  exact hends.state

/-! ### Failed runs -/

/-- **The ways in which a run that failed leaves something behind** that it should not. -/
inductive LeavesBehind (job : Job) (w : World) (out : String) : Stop RebuildFault → World → Prop
  /-- The length of the file could not be set, and the file is empty. -/
  | emptied {kind : IoKind} {w' : World} : w.disk.Written out [] w'.disk →
      (w'.disk.Halted kind ∨ fileLimit < job.length.toNat) →
      LeavesBehind job w out (.failed (.files kind)) w'
  /-- The path ended at a link, and only the link is removed. -/
  | unlinked {fault : RebuildFault} {bytes : List UInt8} {w' : World} :
      w.disk.Unlinked out bytes w'.disk → LeavesBehind job w out (.failed fault) w'
  /-- The number of reused bytes left its 64 bits. -/
  | overflowed {bytes : List UInt8} {w' : World} : w.disk.Written out bytes w'.disk →
      UInt64.size ≤ job.plan.reused → LeavesBehind job w out (.failed (.files .other)) w'
  /-- The system refused something to the complete output. -/
  | unfinished {kind : IoKind} {bytes : List UInt8} {w' : World} :
      w.disk.Written out bytes w'.disk → job.plan.Makes job.length.toNat bytes →
      w'.disk.Halted kind → LeavesBehind job w out (.failed (.files kind)) w'

/-- The ways in which a run that ends badly keeps its output. -/
inductive KeepsOutput (job : Job) (w : World) (out : String) : Stop RebuildFault → World → Prop
  /-- The complete output has another digest than the expected one, and the policy is to keep it. -/
  | advised {expected : String} {bytes : List UInt8} {w' : World} :
      w.disk.Written out bytes w'.disk → job.plan.Makes job.length.toNat bytes →
      job.settings.integrityPolicy = .advisory → job.expected = some expected →
      Digest.sha1Hex bytes ≠ expected →
      KeepsOutput job w out (.failed (.digest expected (Digest.sha1Hex bytes))) w'
  /-- The system refused to remove the output; nothing else is tried after that. -/
  | refused {fault : RebuildFault} {kind : IoKind} {bytes : List UInt8} {w' : World} :
      w.disk.Written out bytes w'.disk → w'.disk.Halted kind →
      KeepsOutput job w out (.failed fault) w'
  /-- The run did not fail, it crashed. -/
  | crashed {bytes : List UInt8} {w' : World} : w.disk.Written out bytes w'.disk →
      KeepsOutput job w out .crashed w'

/-- **How a run that ends badly leaves the disk**: as it was, or without the file that the path led
to; or it keeps its output, or leaves something behind. -/
def EndsBadly (job : Job) (w : World) (out : String) (cause : Stop RebuildFault) (w' : World) :
    Prop :=
  w.disk.Spares job.seed out w'.disk ∧
    (w.disk.Kept w'.disk ∨ w.disk.Removed out w'.disk ∨ job.KeepsOutput w out cause w' ∨
      job.LeavesBehind w out cause w')

theorem endsBadly_of_discarded {fault : RebuildFault} (h : Writes w out s b)
    (hw : w'.disk = b.discarded.disk) : job.EndsBadly w out (.failed fault) w' := by
  obtain ⟨hs, hleft⟩ := h.discarded job.seed
  rw [← hw] at hs hleft
  refine ⟨hs, Or.inr ?_⟩
  rcases hleft with hr | hu | ⟨hwritten, kind, hk⟩
  · exact Or.inl hr
  · exact Or.inr (Or.inr (.unlinked hu))
  · exact Or.inr (Or.inl (.refused hwritten hk))

/-- A run that breaks off. -/
theorem Aborts.endsBadly {cause : Stop RebuildFault} (h : job.Aborts w cause w')
    (hdest : job.destination = .file out) : job.EndsBadly w out cause w' := by
  cases h with
  | early hk => exact ⟨spares_of_kept hk _ _, Or.inl hk⟩
  | @unsized kind _ path s hfile hw hs hget halong hr =>
    obtain rfl := Destination.file.inj (hfile.symm.trans hdest)
    have hoff := halong.tree (Tree.SameOff.refl _ _)
    refine ⟨spares_of_sameOff hw hs hoff halong.cwd, Or.inr (Or.inr (Or.inr ?_))⟩
    exact .emptied ⟨s, _, _, hw, hs, hget, hoff⟩ hr
  | abandoned ho hc =>
    obtain ⟨s, h⟩ := ho.writes hdest hc
    exact endsBadly_of_discarded h rfl
  | overflowed ho hc hlarge =>
    obtain ⟨s, h⟩ := ho.writes hdest hc
    exact ⟨h.spares _, Or.inr (Or.inr (Or.inr (.overflowed h.written hlarge)))⟩
  | crashed ho hc =>
    obtain ⟨s, h⟩ := ho.writes hdest hc
    exact ⟨h.spares _, Or.inr (Or.inr (Or.inl (.crashed h.written)))⟩

/-- A run that cannot finish its output. -/
theorem FailsApart.endsBadly {cause : Stop RebuildFault} (h : job.FailsApart w cause w')
    (hdest : job.destination = .file out) : job.EndsBadly w out cause w' := by
  cases h with
  | unfilled ha => exact ha.endsBadly hdest
  | @unfinished b₁ b b' ho hc _ hmakes hfails hw =>
    rcases hfails with ⟨⟨position, hat⟩, hcause⟩ | ⟨_, b₂, expected, actual, hc₂, hdisk, rfl⟩
    · -- the output stays where it is, with all its bytes
      obtain ⟨s, h⟩ := ho.writes hdest (hc.trans hat.carries)
      have hwritten := h.written
      have hspares := h.spares job.seed
      rw [hat.bytes, hw] at hwritten
      rw [hw] at hspares
      refine ⟨hspares, Or.inr (Or.inr ?_)⟩
      rcases hcause with ⟨kind, rfl, hr⟩ | ⟨expected, he, hne, hpolicy, rfl⟩
      · exact Or.inr (.unfinished hwritten hmakes (hw ▸ hr))
      · exact Or.inl (.advised hwritten hmakes hpolicy he hne)
    · -- the digest is another one, and the policy is strict
      obtain ⟨s, h⟩ := ho.writes hdest (hc.trans hc₂)
      rw [hw] at hdisk
      exact endsBadly_of_discarded h hdisk

/-- **Every output that is too long for a file is left behind empty**, whatever the file that its
path led to had in it. -/
theorem ends_run_of_oversized (job : Job) (w : World) {out : String}
    (hdest : job.destination = .file out) (hcheck : job.plan.check job.length = .ok ())
    (hclient : ∃ origin, job.origin? = .ok origin) (hobliging : w.disk.IsObliging)
    (hcan : w.disk.CanCreate out) (hlong : fileLimit < job.length.toNat) :
    job.run.Ends w (fun _ _ => False)
      fun cause w' => (∃ kind, cause = .failed (.files kind)) ∧ w.disk.Written out [] w'.disk := by
  obtain ⟨origin, horigin⟩ := hclient
  unfold run
  rw [ends_bind, ends_ofExcept, hcheck]
  dsimp only
  rw [ends_bind, ends_ofExcept, horigin]
  dsimp only
  rw [ends_bind, Bench.ends_onDisk, hdest]
  refine (Writer.ends_openAt_file w.disk out job.seed job.length _).mono ?_ ?_
  · -- it cannot be given a length that no file has
    rintro _ d ⟨s, _, _, hlen, _⟩
    exact absurd hlen (by omega)
  · rintro kind d (⟨_, hr | hr⟩ | ⟨s, hw, hs, hget, halong, _⟩)
    · exact (hobliging kind hr).elim
    · exact absurd hcan hr
    · exact ⟨⟨kind, rfl⟩, s, _, _, hw, hs, hget, halong.tree (Tree.SameOff.refl _ _)⟩

/-- A job for a target that is one byte longer than any file, with a plan that has no ranges. -/
def oversized : Job where
  length := 9223372036854775808
  seed := "/seed"
  url := ⟨"http", true, "", none, none, none, "/", none, none⟩
  plan := .empty
  destination := .file "/out"
  settings := Settings.default.reconstruction
  client := .ok ⟨productName⟩
  expected := none
  mtime := none

/-- A world with a file of three bytes at the path. -/
def occupied : World :=
  .ofDisk (.ofTree [] ⟨[(["out"], .file [97, 98, 99] defaultMode none)]⟩)

/-- **A failed run leaves no partial output behind**, except in the four cases of
`RangeSync.Job.LeavesBehind`: afterwards the disk is as it was, or the file that the path led to is
gone. However the run ends, a seed that the path does not lead to has the bytes that it had. -/
theorem leaves_no_partial_output (job : Job) (w : World) (out : String)
    (hdest : job.destination = .file out) :
    job.run.Ends w (fun _ w' => w.disk.Spares job.seed out w'.disk)
      fun cause w' => job.EndsBadly w out cause w' := by
  refine (job.ends_run_of_file w hdest).mono ?_ ?_
  · rintro summary w' ⟨bytes, s, _, hw, hs, _, halong⟩
    exact spares_of_sameOff hw hs (halong.tree (Tree.SameOff.refl _ _)) halong.cwd
  · rintro cause w' ⟨hfails, _⟩
    exact hfails.endsBadly hdest

/-- The job for a target that is too long is such a run. -/
theorem leaves_no_partial_output_oversized :
    oversized.destination = .file "/out" ∧
      oversized.run.Ends occupied (fun _ w' => occupied.disk.Spares "/seed" "/out" w'.disk)
        fun cause w' => oversized.EndsBadly occupied "/out" cause w' :=
  ⟨rfl, leaves_no_partial_output oversized occupied "/out" rfl⟩

/-- **Without the exceptions the statement fails**: nothing is refused, the run fails because of the
length, and the file at the path, which had three bytes, is there and has none. -/
theorem oversized_leaves_empty_output :
    occupied.disk.IsObliging ∧ occupied.disk.tree.bytes? ["out"] = some [97, 98, 99] ∧
      oversized.destination = .file "/out" ∧
      ∃ kind w', runOn oversized.run occupied = (.error (.failed (.files kind)), w') ∧
        w'.disk.tree.bytes? ["out"] = some [] := by
  have hwalk : occupied.disk.tree.walk [] true "/out" =
      .ok (.taken ["out"] (.file [97, 98, 99] defaultMode none)) :=
    Tree.walk_of_name (by decide) (by decide) (by decide) rfl
  have hobliging : occupied.disk.IsObliging := by
    rintro kind ⟨number, hn⟩
    cases hn
  refine ⟨hobliging, rfl, rfl, ?_⟩
  have hends := ends_run_of_oversized oversized occupied rfl rfl ⟨none, rfl⟩ hobliging
    ⟨by decide, _, hwalk, trivial⟩ (by decide)
  rcases hrun : runOn oversized.run occupied with ⟨cause | summary, w'⟩
  · obtain ⟨⟨kind, rfl⟩, s, mode, time, hw, _, hget, _⟩ := hends.of_error hrun
    obtain rfl := Except.ok.inj (hwalk.symm.trans hw)
    exact ⟨kind, w', rfl, Tree.bytes?_eq hget⟩
  · exact (hends.of_ok hrun).elim

end Job
end RangeSync
