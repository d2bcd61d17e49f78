import RangeSync.Proofs.Commit
import RangeSync.Proofs.Download
import RangeSync.Sync.Task

/-!
# The steps around a job

Before a task can put a file together it gets the descriptor, reads it, and asks for a plan; after
that it may have a digest to compare. None of these steps touches a file that was there before. A
descriptor from the web is kept in a temporary file for as long as the task runs
(`RangeSync.Fetched.Arrives`), and everything else leaves the tree as it is.
-/

namespace RangeSync

open Act Disk

variable {w w' : World} {α : Type}

namespace Fetched

/-- **The descriptor is there**: in a file of the disk, or in a temporary one that was added. -/
structure Arrives (f : Fetched) (w w' : World) : Prop where
  server : w'.net.server = w.net.server
  kept : f.temporary = none → w.disk.Kept w'.disk
  added : ∀ file, f.temporary = some file →
    ∃ content, Writer.Holds w.disk file content privateMode w'.disk

/-- No entry is lost on the way. -/
theorem Arrives.along {f : Fetched} (h : f.Arrives w w') :
    Along w.disk.tree.Keeps w.disk w'.disk := by
  rcases htemp : f.temporary with _ | file
  · exact (h.kept htemp).along
  · obtain ⟨content, hh⟩ := h.added file htemp
    exact hh.along

/-- **A file that was there is still found** when the descriptor is there. -/
theorem Arrives.fileAt {f : Fetched} {path : String} {place : Location} {content : List UInt8}
    (h : f.Arrives w w') (hfile : w.disk.FileAt path place content) :
    w'.disk.FileAt path place content := by
  obtain ⟨mode, time, hw⟩ := hfile
  have hkeeps := h.along.tree fun _ _ he => he
  refine ⟨mode, time, ?_⟩
  rw [h.along.cwd]
  exact Tree.walk_keeps hkeeps hw

/-- A file can still be created where one could be created before. -/
theorem Arrives.canCreate {f : Fetched} {path : String} (h : f.Arrives w w')
    (hc : w.disk.CanCreate path) : w'.disk.CanCreate path := by
  obtain ⟨hslash, s, hw, hs⟩ := hc
  refine ⟨hslash, ?_⟩
  rcases htemp : f.temporary with _ | file
  · have hk := h.kept htemp
    rw [hk.tree, hk.cwd]
    exact ⟨s, hw, hs⟩
  · obtain ⟨content, hh⟩ := h.added file htemp
    rw [hh.along.cwd]
    exact Tree.walk_beside_open hh.beside hh.file hw hs

/-- A path that leads to a place for a file led to that place before. -/
theorem Arrives.walk_before {f : Fetched} {follow : Bool} {path : String} {s : Spot}
    (h : f.Arrives w w') (hw : w'.disk.tree.walk w'.disk.cwd follow path = .ok s)
    (hs : s.IsOpen) :
    ∃ s', w.disk.tree.walk w.disk.cwd follow path = .ok s' ∧ s'.place = s.place ∧ s'.IsOpen := by
  rw [h.along.cwd] at hw
  rcases htemp : f.temporary with _ | file
  · rw [(h.kept htemp).tree] at hw
    exact ⟨s, hw, rfl, hs⟩
  · obtain ⟨content, hh⟩ := h.added file htemp
    exact Tree.walk_before_open hh.beside hh.file hw hs

/-- A file that was there is not the temporary one. -/
theorem Arrives.ne_temporary {f : Fetched} {path : String} {place temporary : Location}
    {content : List UInt8} (h : f.Arrives w w') (hfile : w.disk.FileAt path place content)
    (htemp : f.temporary = some temporary) : place ≠ temporary := by
  rintro rfl
  obtain ⟨mode, time, hw⟩ := hfile
  obtain ⟨_, hh⟩ := h.added place htemp
  have hget := Tree.get?_of_walk hw trivial
  rw [show (Spot.taken place (.file content mode time)).place = place from rfl, hh.beside.1] at hget
  cases hget

/-- A path to a place for a file leads to a file that was there exactly if it led to it before. -/
theorem Arrives.placeOf?_eq_iff {f : Fetched} {path other : String} {place : Location}
    {content : List UInt8} (h : f.Arrives w w') (hfile : w.disk.FileAt path place content)
    (hc : w.disk.CanCreate other) :
    w'.disk.placeOf? other = some place ↔ w.disk.placeOf? other = some place := by
  constructor
  · intro hplace
    obtain ⟨_, _, hw'⟩ := (h.fileAt hfile).of_placeOf? hplace (h.canCreate hc).2
    obtain ⟨s, hw, hs, hopen⟩ := h.walk_before hw' trivial
    cases s with
    | taken _ _ =>
      cases hs
      rw [Disk.placeOf?, hw]
    | vacant folder name =>
      -- the file was there before, so its place was not free
      obtain ⟨_, _, hget⟩ := hfile.get?
      have hnone := Tree.get?_of_walk hw trivial
      rw [hs] at hnone
      cases hget.symm.trans hnone
  · intro hplace
    exact (h.fileAt (hfile.of_placeOf? hplace hc.2)).placeOf?

theorem ends_onDisk {act : FileAct α} {post : α → World → Prop}
    {fail : Stop SyncFault → World → Prop} :
    (onDisk act).Ends w post fail ↔
      act.Ends w.disk (fun a d => post a { w with disk := d })
        fun kind d => fail (.failed (.files kind)) { w with disk := d } :=
  ends_within

theorem ends_writePieces {d d₁ : Disk} {file : Location} {content : List UInt8} {mode : Nat}
    (h : Writer.Holds d file content mode d₁) (position : Nat) (pieces : List (List UInt8)) :
    (writePieces file position pieces).Ends d₁
      (fun _ d₂ => ∃ content, Writer.Holds d file content mode d₂)
      fun _ d₂ => ∃ content, Writer.Holds d file content mode d₂ := by
  induction pieces generalizing d₁ content position with
  | nil => exact ⟨content, h⟩
  | cons piece rest ih =>
    unfold writePieces
    rw [ends_bind]
    refine (ends_writeAt d₁ file position piece).mono ?_ ?_
    · intro _ d₂ ht
      rw [Tree.edited_eq h.file] at ht
      exact ih (h.put ht) _
    · rintro kind d₂ ⟨hk, _⟩
      exact ⟨content, h.kept hk⟩

/-- **Keeping a body** in a temporary file; if that fails, the file is removed. -/
theorem ends_keep (location : String) (body : Http.Body) (w : World) :
    (keep location body).Ends w
      (fun file w' => w'.net = w.net ∧
        ∃ content, Writer.Holds w.disk file content privateMode w'.disk)
      fun cause w' => Writer.Spares w.disk w'.disk ∧ ∃ fault, cause = .failed fault := by
  unfold keep
  rw [ends_bind, ends_onDisk]
  refine (ends_createTemporary w.disk temporaryFolder).mono ?_ ?_
  · rintro file d₁ ⟨hnone, ht, _⟩
    have hb : Tree.Beside file w.disk.tree d₁.tree := by
      rw [ht.tree]
      exact ⟨hnone, Tree.sameOff_put _ _ _⟩
    have h₁ : Writer.Holds w.disk file [] privateMode d₁ := by
      refine ⟨ht.along (ht.tree ▸ hb.keeps), hb, ?_⟩
      rw [ht.tree]
      exact Tree.get?_put_self _ _ (Tree.ne_nil_of_none hnone)
    dsimp only
    rw [ends_bind, ends_tryCatch, ends_onDisk]
    refine (ends_writePieces h₁ 0 body.pieces).mono ?_ ?_
    · rintro _ d₂ ⟨content, h₂⟩
      split
      · rw [ends_bind, ends_onDisk]
        refine ends_dropTemporary fun d₃ ht => ?_
        exact ⟨h₂.spares ht, _, rfl⟩
      · exact ⟨rfl, content, h₂⟩
    · rintro kind d₂ ⟨content, h₂⟩
      rw [ends_bind, ends_onDisk]
      refine ends_dropTemporary fun d₃ ht => ?_
      exact ⟨h₂.spares ht, _, rfl⟩
  · rintro kind d₁ ⟨hk, _⟩
    exact ⟨Writer.spares_of_kept hk, _, rfl⟩

/-- How getting a descriptor ends. -/
def EndsArrived (act : SyncAct Fetched) (w : World) : Prop :=
  act.Ends w (fun f w' => f.Arrives w w')
    fun cause w' => Writer.Spares w.disk w'.disk ∧ ∃ fault, cause = .failed fault

theorem ends_remote (client : Http.Client) (location : String) (url : Url) (w : World) :
    EndsArrived (remote client location url) w := by
  unfold EndsArrived remote
  rw [ends_bind, ends_within]
  refine (Http.ends_follow_server client none _ _ w.net).mono ?_ ?_
  · intro answer net hserver
    rw [ends_when]
    split
    · exact ⟨Writer.Spares.refl _, _, rfl⟩
    · rw [ends_pure, ends_bind]
      refine (ends_keep location answer.body { w with net }).mono ?_ fun _ _ h => h
      rintro file w' ⟨hnet, content, h⟩
      refine ⟨by rw [hnet]; exact hserver, nofun, fun file' hfile => ?_⟩
      cases hfile
      exact ⟨content, h⟩
  · intro fault net _
    exact ⟨Writer.Spares.refl _, _, rfl⟩

theorem ends_ofPath (location path : String) (w : World) :
    EndsArrived (ofPath location path) w := by
  unfold EndsArrived ofPath
  rw [ends_when]
  split
  · exact ⟨Writer.Spares.refl _, _, rfl⟩
  · rw [ends_pure, ends_bind, ends_get, ends_bind, ends_onDisk]
    refine ends_isFile fun isThere => ?_
    split
    · exact ⟨rfl, fun _ => Kept.refl _, nofun⟩
    · exact ⟨Writer.Spares.refl _, _, rfl⟩

/-- A descriptor in a file: it is there, so it is found. -/
theorem runOn_ofPath {location path : String} {place : Location} {content : List UInt8}
    (hname : path.isEmpty = false)
    (hfile : w.disk.FileAt (Path.absolute w.disk.cwd.toPath path) place content) :
    runOn (ofPath location path) w =
      (.ok ⟨Path.absolute w.disk.cwd.toPath path,
        .ofFilePath (Path.absolute w.disk.cwd.toPath path), none⟩, w) := by
  have hends : (ofPath location path).Ends w
      (fun f w' => f = ⟨Path.absolute w.disk.cwd.toPath path,
        .ofFilePath (Path.absolute w.disk.cwd.toPath path), none⟩ ∧ w' = w)
      fun _ _ => False := by
    unfold ofPath
    rw [hname, ends_when, if_neg Bool.false_ne_true, ends_pure, ends_bind, ends_get, ends_bind,
      ends_onDisk]
    refine (ends_isFile_of hfile).mono ?_ fun _ _ hno => hno.elim
    rintro _ d ⟨rfl, rfl⟩
    exact ⟨rfl, rfl⟩
  obtain ⟨f, w', hrun, rfl, rfl⟩ := hends.exists_ok
  exact hrun

/-- **Getting a descriptor** adds at most a temporary file, and nothing if it fails. -/
theorem ends_ofLocation (client : Http.Client) (location : String) (w : World) :
    EndsArrived (ofLocation client location) w := by
  unfold ofLocation
  split
  · exact ends_ofPath location location w
  · rename_i url _
    split
    · exact ends_remote client location url w
    · split
      · unfold ofFileUrl
        split
        · exact ⟨Writer.Spares.refl _, _, rfl⟩
        · split
          · exact ends_ofPath location _ w
          · exact ⟨Writer.Spares.refl _, _, rfl⟩
      · split
        · exact ⟨Writer.Spares.refl _, _, rfl⟩
        · exact ends_ofPath location location w

/-- The temporary file, if there is one, was removed. -/
structure Released (f : Fetched) (w w' : World) : Prop where
  kept : f.temporary = none → w' = w
  dropped : ∀ file, f.temporary = some file → w.disk.Turned (w.disk.tree.erase file) w'.disk

/-- **The descriptor is given back**, and that does not fail. -/
theorem ends_release (f : Fetched) (w : World) :
    f.release.Ends w (fun _ w' => f.Released w w') fun _ _ => False := by
  unfold release
  rcases htemp : f.temporary with _ | file
  · exact ⟨fun _ => rfl, by rw [htemp]; exact nofun⟩
  · rw [ends_onDisk]
    refine ends_dropTemporary fun d ht => ⟨by rw [htemp]; exact nofun, fun file' hfile => ?_⟩
    cases htemp.symm.trans hfile
    exact ht

/-- The world after the descriptor was given back. -/
def released (f : Fetched) (w : World) : World :=
  (runOn f.release w).2

theorem runOn_release (f : Fetched) (w : World) : runOn f.release w = (.ok ⟨⟩, f.released w) := by
  obtain ⟨_, w', hrun, _⟩ := (ends_release f w).exists_ok
  rw [released, hrun]

theorem released_released (f : Fetched) (w : World) : f.Released w (f.released w) :=
  (ends_release f w).of_ok (runOn_release f w)

theorem net_released (f : Fetched) (w : World) : (f.released w).net = w.net := by
  unfold released release
  split <;> rfl

theorem Released.cwd {f : Fetched} (h : f.Released w w') : w'.disk.cwd = w.disk.cwd := by
  rcases htemp : f.temporary with _ | file
  · rw [h.kept htemp]
  · exact (h.dropped file htemp).cwd

/-- **When the descriptor is given back, a change at another place is all that is left.** -/
theorem Arrives.sameOff {f : Fetched} {w₁ w₂ : World} {site : Location} (h : f.Arrives w w')
    (hoff : Tree.SameOff site w'.disk.tree w₁.disk.tree) (hr : f.Released w₁ w₂) :
    Tree.SameOff site w.disk.tree w₂.disk.tree := by
  intro other ho
  rcases htemp : f.temporary with _ | file
  · rw [hr.kept htemp, hoff other ho, (h.kept htemp).tree]
  · obtain ⟨content, hh⟩ := h.added file htemp
    rw [(hr.dropped file htemp).tree]
    by_cases hfile : other = file
    · rw [hfile, Tree.get?_erase_self (Tree.ne_nil_of_none hh.beside.1), hh.beside.1]
    · rw [Tree.get?_erase_of_ne hfile, hoff other ho, hh.beside.2 other hfile]

/-- A change in the place of the temporary file is gone with it. -/
theorem Arrives.same {f : Fetched} {w₁ w₂ : World} {file : Location} (h : f.Arrives w w')
    (htemp : f.temporary = some file) (hoff : Tree.SameOff file w'.disk.tree w₁.disk.tree)
    (hr : f.Released w₁ w₂) : w.disk.tree.Same w₂.disk.tree := by
  obtain ⟨content, hh⟩ := h.added file htemp
  intro other
  by_cases hfile : other = file
  · rw [(hr.dropped file htemp).tree, hfile,
      Tree.get?_erase_self (Tree.ne_nil_of_none hh.beside.1), hh.beside.1]
  · exact h.sameOff hoff hr other hfile

/-- A descriptor that is given back leaves no trace. -/
theorem Arrives.spares {f : Fetched} {w₁ w₂ : World} (h : f.Arrives w w')
    (hs : Writer.Spares w'.disk w₁.disk) (hr : f.Released w₁ w₂) :
    Writer.Spares w.disk w₂.disk := by
  rcases htemp : f.temporary with _ | file
  · rw [hr.kept htemp]
    exact (Writer.spares_of_kept (h.kept htemp)).trans hs
  · obtain ⟨content, hh⟩ := h.added file htemp
    exact (hh.of_spares hs).spares (hr.dropped file htemp)

end Fetched

/-! ### Order and plan -/

/-- A step that changes neither the tree nor what a job depends on. -/
structure World.Idles (w w' : World) : Prop where
  disk : w.disk.Kept w'.disk
  server : w'.net.server = w.net.server

theorem World.Idles.refl (w : World) : World.Idles w w :=
  ⟨Kept.refl _, rfl⟩

/-- The descriptor is still there. -/
theorem Fetched.Arrives.idles {f : Fetched} {w'' : World} (h : f.Arrives w w')
    (hi : World.Idles w' w'') : f.Arrives w w'' := by
  refine ⟨hi.server.trans h.server, fun htemp => (h.kept htemp).trans hi.disk, ?_⟩
  intro file htemp
  obtain ⟨content, hh⟩ := h.added file htemp
  exact ⟨content, hh.kept hi.disk⟩

namespace SyncTask

theorem ends_rebuild {act : Work α} {post : α → World → Prop}
    {fail : Stop SyncFault → World → Prop} :
    (rebuild act).Ends w post fail ↔
      act.Ends w post fun cause w' => fail (cause.map .rebuild) w' :=
  ends_within

/-- **Reading the descriptor** changes nothing; it gives what the bytes in the file say. -/
theorem ends_order (fetched : Fetched) (w : World) :
    (order fetched).Ends w
      (fun order w' => World.Idles w w' ∧ ∃ place e d rest log,
        w.disk.tree.walk w.disk.cwd true fetched.path = .ok (.taken place e) ∧
        Descriptor.read (w.disk.bytesAt place) = .ok (d, rest) ∧
        Order.ofDescriptor fetched.url d = .ok (order, log))
      fun cause w' => World.Idles w w' ∧ (∃ fault, cause = .failed fault) ∧
        ∀ place bytes d rest read, w.disk.IsObliging → w.disk.FileAt fetched.path place bytes →
          Descriptor.read bytes = .ok (d, rest) →
          Order.ofDescriptor fetched.url d ≠ .ok read := by
  unfold order
  rw [ends_bind, Bench.ends_onDisk]
  refine (ends_contents w.disk fetched.path).mono ?_ ?_
  · rintro bytes d₁ ⟨hk, place, e, hw, rfl⟩
    have hidle (log : List Entry) : World.Idles w { w with disk := d₁, log } :=
      ⟨hk, rfl⟩
    have hbytes {place' : Location} {bytes' : List UInt8}
        (h : w.disk.FileAt fetched.path place' bytes') : w.disk.bytesAt place = bytes' := by
      obtain ⟨rfl, -⟩ := h.eq_of_walk hw
      exact h.bytesAt
    rw [ends_bind, ends_ofExcept]
    rcases hread : Descriptor.read (w.disk.bytesAt place) with error | ⟨d, rest⟩
    · refine ⟨hidle _, ⟨_, rfl⟩, fun place' bytes' d' rest' read _ hfile hread' => ?_⟩
      rw [← hbytes hfile, hread] at hread'
      cases hread'
    · dsimp only
      rw [ends_bind, ends_ofExcept]
      rcases horder : Order.ofDescriptor fetched.url d with error | ⟨order, log⟩
      · refine ⟨hidle _, ⟨_, rfl⟩, fun place' bytes' d' rest' read _ hfile hread' => ?_⟩
        rw [← hbytes hfile, hread] at hread'
        cases hread'
        rw [horder]
        exact nofun
      · exact ⟨hidle _, place, e, d, rest, log, hw, hread, horder⟩
  · rintro kind d₁ ⟨hk, hr⟩
    refine ⟨⟨hk, rfl⟩, ⟨_, rfl⟩, fun place bytes d rest read hobliging hfile => ?_⟩
    rcases hr with hr | hr
    · exact (hobliging kind hr).elim
    · exact (hr place bytes hfile).elim

/-- **Asking for a plan** changes no files. -/
theorem ends_plan (planner : Planner) (descriptor seed : String) (w : World) :
    (planner.plan descriptor seed).Ends w (fun _ w' => World.Idles w w')
      fun _ w' => World.Idles w w' := by
  unfold Planner.plan
  split
  · exact World.Idles.refl w
  · rw [ends_bind]
    have hstart (command : Command) :
        (Planner.start command).Ends w (fun _ w' => World.Idles w w')
          fun _ w' => World.Idles w w' := by
      unfold Planner.start
      rw [ends_bind, ends_get]
      dsimp only
      rw [ends_bind, ends_set]
      split
      · exact ⟨Kept.refl _, rfl⟩
      · exact ⟨Kept.refl _, rfl⟩
    refine (hstart _).mono ?_ fun _ _ h => h
    intro finished w₁ h₁
    rw [ends_bind, ends_ofExcept]
    split
    · rw [ends_bind, ends_get]
      dsimp only
      split
      · rw [ends_bind, ends_orCrash]
        split
        · exact ⟨h₁.disk, h₁.server⟩
        · exact h₁
      · exact h₁
    · exact h₁

/-- Where the output goes: the two paths are compared as they lead. -/
def destinationOn (d : Disk) (seed : String) (output : Option String) : Destination :=
  match output with
  | none => .replaceSeed
  | some path =>
    if (d.placeOf? seed).isSome ∧ d.placeOf? seed = d.placeOf? path then .replaceSeed
    else .file path

/-- An output of its own leads elsewhere than the seed. -/
theorem destinationOn_eq_file {d : Disk} {seed path : String} {output : Option String}
    (h : destinationOn d seed output = .file path) :
    output = some path ∧ ∀ place, d.placeOf? seed = some place → d.placeOf? path ≠ some place := by
  unfold destinationOn at h
  split at h
  · cases h
  · split at h
    · cases h
    · rename_i hne
      cases h
      refine ⟨rfl, fun place hseed hpath => hne ⟨?_, ?_⟩⟩
      · rw [hseed]
        rfl
      · rw [hseed, hpath]

/-- An output path that leads to the seed means that the seed is replaced. -/
theorem destinationOn_eq_replaceSeed {d : Disk} {seed path : String} {place : Location}
    {content content' : List UInt8} (hseed : d.FileAt seed place content)
    (hpath : d.FileAt path place content') :
    destinationOn d seed (some path) = .replaceSeed := by
  have hsome : (d.placeOf? seed).isSome = true := by
    rw [hseed.placeOf?]
    rfl
  exact if_pos ⟨hsome, hseed.placeOf?.trans hpath.placeOf?.symm⟩

theorem ends_forSeed {d : Disk} {seed : String} {output : Option String}
    {post : Destination → Disk → Prop} {fail : IoKind → Disk → Prop} :
    (Destination.forSeed seed output).Ends d post fail ↔
      post (destinationOn d seed output) d := by
  unfold Destination.forSeed destinationOn
  split
  · rfl
  · rw [ends_bind, ends_canonical?, ends_bind, ends_canonical?]
    rfl

theorem runOn_forSeed (seed : String) (output : Option String) (d : Disk) :
    runOn (Destination.forSeed seed output) d = (.ok (destinationOn d seed output), d) := by
  have hends : (Destination.forSeed seed output).Ends d
      (fun destination d' => destination = destinationOn d seed output ∧ d' = d)
      fun _ _ => False := ends_forSeed.mpr ⟨rfl, rfl⟩
  obtain ⟨_, _, hrun, rfl, rfl⟩ := hends.exists_ok
  exact hrun

/-- **Comparing the digest of a file in its place** changes no files. -/
theorem ends_confirm (path expected : String) (w : World) :
    (confirm path expected).Ends w
      (fun _ w' => w.disk.Kept w'.disk ∧ ∃ place e,
        w.disk.tree.walk w.disk.cwd true path = .ok (.taken place e) ∧
          Digest.sha1Hex (w.disk.bytesAt place) = expected)
      fun cause w' => w.disk.Kept w'.disk ∧
        ((∃ kind, cause = .failed (.rebuild (.files kind))) ∨
          ∃ place e, w.disk.tree.walk w.disk.cwd true path = .ok (.taken place e) ∧
            Digest.sha1Hex (w.disk.bytesAt place) ≠ expected ∧
            cause = .failed (.rebuild (.digest expected (Digest.sha1Hex (w.disk.bytesAt place))))) ∧
        ∀ place content, w.disk.IsObliging → w.disk.FileAt path place content →
          Digest.sha1Hex content ≠ expected := by
  unfold confirm
  rw [ends_bind, ends_rebuild, Bench.ends_onDisk]
  unfold Integrity.digestOf
  rw [ends_bind]
  refine (ends_contents w.disk path).mono ?_ ?_
  · rintro bytes d₁ ⟨hk, place, e, hw, rfl⟩
    rw [ends_pure]
    split
    · rename_i hne
      rw [ends_bind, World.note, ends_modify]
      refine ⟨hk, Or.inr ⟨place, e, hw, hne, rfl⟩, fun place' content _ hfile => ?_⟩
      obtain ⟨rfl, -⟩ := hfile.eq_of_walk hw
      rwa [hfile.bytesAt] at hne
    · rename_i heq
      exact ⟨hk, place, e, hw, Decidable.of_not_not heq⟩
  · rintro kind d₁ ⟨hk, hr⟩
    refine ⟨hk, Or.inl ⟨kind, rfl⟩, fun place content hobliging hfile => ?_⟩
    rcases hr with hr | hr
    · exact (hobliging kind hr).elim
    · exact (hr place content hfile).elim

/-! ### What a task knows -/

/-- **What a task knows when its job is run**, with the worlds in which it learned it: the
descriptor was found, it was read, and there was a plan. -/
structure Briefing (task : SyncTask) (w : World) where
  client : Http.Client
  fetched : Fetched
  order : Order
  plan : Plan
  found : World
  read : World
  planned : World
  named : Http.Client.named task.settings.client.userAgent = .ok client
  finds : runOn (Fetched.ofLocation client task.location) w = (.ok fetched, found)
  reads : runOn (SyncTask.order fetched) found = (.ok order, read)
  plans : runOn (task.planner.plan fetched.path task.seed) read = (.ok plan, planned)

namespace Briefing

variable {task : SyncTask}

/-- The world in which the job is run. -/
def start (b : Briefing task w) : World :=
  { b.planned with
    progress := b.planned.progress.map fun t => .fresh (b.order.item task.location) t.sink }

/-- The job. -/
def job (b : Briefing task w) : Job :=
  task.job b.client b.order b.plan (destinationOn b.planned.disk task.seed task.output)

/-- What is done once everything is known. -/
def conclude (b : Briefing task w) : SyncAct Outcome := do
  let summary ← rebuild b.job.run
  if !summary.isVerified then confirm summary.path b.order.digest
  pure ⟨b.order.length, b.order.url, b.order.digest, summary⟩

/-- What is answered if the job succeeds. -/
def outcome (b : Briefing task w) (summary : Summary) : Outcome :=
  ⟨b.order.length, b.order.url, b.order.digest, summary⟩

/-- The digest is compared by the job under the strict policy, and only then. -/
theorem expected_eq (b : Briefing task w) :
    b.job.expected =
      match task.settings.reconstruction.integrityPolicy with
      | .strict => some b.order.digest
      | .advisory => none :=
  rfl

theorem advisory (b : Briefing task w) (h : ¬ b.job.expected.isSome = true) :
    task.settings.reconstruction.integrityPolicy = .advisory := by
  rw [b.expected_eq] at h
  split at h
  · exact absurd rfl h
  · rename_i hpolicy
    exact hpolicy

/-- The job is run, and if it has not compared the digest, this is done now. -/
theorem ends_conclude (b : Briefing task w) {post : Outcome → World → Prop}
    {fail : Stop SyncFault → World → Prop}
    (h : b.job.run.Ends b.start
      (fun summary w' => if summary.isVerified then post (b.outcome summary) w'
        else (confirm summary.path b.order.digest).Ends w'
          (fun _ w'' => post (b.outcome summary) w'') fail)
      fun cause w' => fail (cause.map .rebuild) w') :
    b.conclude.Ends b.start post fail := by
  unfold conclude
  rw [ends_bind, ends_rebuild]
  refine h.mono ?_ fun _ _ hfail => hfail
  intro summary w' hpost
  rw [ends_when]
  cases hverified : summary.isVerified with
  | true =>
    rw [hverified] at hpost
    exact hpost
  | false =>
    rw [hverified] at hpost
    exact hpost

/-- A task learns only one thing. -/
theorem unique (b b' : Briefing task w) : b = b' := by
  obtain ⟨client, fetched, order, plan, found, read, planned, hn, hf, hr, hp⟩ := b
  obtain ⟨client', fetched', order', plan', found', read', planned', hn', hf', hr', hp'⟩ := b'
  obtain rfl := Except.ok.inj (hn.symm.trans hn')
  obtain ⟨h, rfl⟩ := Prod.mk.inj (hf.symm.trans hf')
  obtain rfl := Except.ok.inj h
  obtain ⟨h, rfl⟩ := Prod.mk.inj (hr.symm.trans hr')
  obtain rfl := Except.ok.inj h
  obtain ⟨h, rfl⟩ := Prod.mk.inj (hp.symm.trans hp')
  obtain rfl := Except.ok.inj h
  rfl

theorem arrives_found (b : Briefing task w) : b.fetched.Arrives w b.found :=
  (Fetched.ends_ofLocation b.client task.location w).of_ok b.finds

/-- Once the descriptor is there, nothing happens to the files until the job is run. -/
theorem idles (b : Briefing task w) : World.Idles b.found b.start := by
  have hread := ((ends_order b.fetched b.found).of_ok b.reads).1
  have hplanned := (ends_plan task.planner b.fetched.path task.seed b.read).of_ok b.plans
  exact ⟨hread.disk.trans hplanned.disk, hplanned.server.trans hread.server⟩

theorem arrives (b : Briefing task w) : b.fetched.Arrives w b.start :=
  b.arrives_found.idles b.idles

/-- Without a path for an output, the seed is replaced. -/
theorem destination_eq (b : Briefing task w) (h : task.output = none) :
    b.job.destination = .replaceSeed := by
  change destinationOn _ _ task.output = _
  rw [h]
  rfl

end Briefing

/-- **A run of a task**: it ends before it knows everything, and then it leaves no trace, or it
runs its job. Either way it gives the descriptor back. -/
theorem ends_run (task : SyncTask) (w : World) {post : Outcome → World → Prop}
    {fail : Stop SyncFault → World → Prop}
    (hearly : ∀ cause w', (Briefing task w → False) → Writer.Spares w.disk w'.disk →
      fail cause w')
    (hlate : ∀ b : Briefing task w, b.conclude.Ends b.start
      (fun outcome w' => ∀ w'', b.fetched.Released w' w'' → post outcome w'')
      fun cause w' => ∀ w'', b.fetched.Released w' w'' → fail cause w'') :
    task.run.Ends w post fail := by
  unfold run
  rw [ends_bind, ends_ofExcept]
  rcases hnamed : Http.Client.named task.settings.client.userAgent with reason | client
  · exact hearly _ _ (fun b => nomatch hnamed.symm.trans b.named) (Writer.Spares.refl _)
  dsimp only
  rw [ends_bind]
  refine ((Fetched.ends_ofLocation client task.location w).and (ends_self _ w)).mono ?_ ?_
  · rintro fetched w₁ ⟨harrives, hfinds⟩
    -- a task that knows everything has found the same descriptor
    have hsame (b : Briefing task w) : b.client = client ∧ b.fetched = fetched ∧ b.found = w₁ := by
      have hclient := Except.ok.inj (b.named.symm.trans hnamed)
      have hrun := b.finds
      rw [hclient, hfinds] at hrun
      obtain ⟨hf, hw⟩ := Prod.mk.inj hrun
      exact ⟨hclient, (Except.ok.inj hf).symm, hw.symm⟩
    -- whatever the rest does, the descriptor is given back
    rw [ends_bind, ends_tryCatch]
    have hrest : (task.runWith client fetched).Ends w₁
        (fun outcome w' => ∀ w'', fetched.Released w' w'' → post outcome w'')
        fun cause w' => ∀ w'', fetched.Released w' w'' → fail cause w'' := by
      unfold runWith
      rw [ends_bind, ends_rebuild]
      refine ((ends_order fetched w₁).and (ends_self _ w₁)).mono ?_ ?_
      · rintro order w₂ ⟨⟨hidle, _⟩, hreads⟩
        rw [ends_bind, ends_rebuild]
        refine ((ends_plan task.planner fetched.path task.seed w₂).and (ends_self _ w₂)).mono
          ?_ ?_
        · rintro plan w₃ ⟨_, hplans⟩
          rw [ends_bind, Fetched.ends_onDisk, ends_forSeed, ends_bind, ends_modify]
          exact hlate ⟨client, fetched, order, plan, w₁, w₂, w₃, hnamed, hfinds, hreads, hplans⟩
        · -- there is no plan, so nothing is known
          rintro cause w₃ ⟨hidle', hstops⟩ w' hr
          have hspares := ((harrives.idles hidle).idles hidle').spares (.refl _) hr
          refine hearly _ _ (fun b => ?_) hspares
          obtain ⟨_, hf, hw⟩ := hsame b
          have hread := b.reads
          rw [hf, hw, hreads] at hread
          have hplan := b.plans
          rw [hf, ← (Prod.mk.inj hread).2, hstops] at hplan
          cases (Prod.mk.inj hplan).1
      · -- the descriptor cannot be read
        rintro cause w₂ ⟨⟨hidle, _⟩, hstops⟩ w' hr
        refine hearly _ _ (fun b => ?_) ((harrives.idles hidle).spares (.refl _) hr)
        obtain ⟨_, hf, hw⟩ := hsame b
        have hread := b.reads
        rw [hf, hw, hstops] at hread
        cases (Prod.mk.inj hread).1
    refine hrest.mono ?_ ?_
    · intro outcome w' hpost
      rw [ends_bind]
      exact (Fetched.ends_release fetched w').mono (fun _ w'' hr => hpost w'' hr)
        fun _ _ h => h.elim
    · intro cause w' hfail
      rw [ends_bind]
      exact (Fetched.ends_release fetched w').mono (fun _ w'' hr => hfail w'' hr)
        fun _ _ h => h.elim
  · -- the descriptor cannot be had
    rintro cause w₁ ⟨⟨hs, _⟩, hstops⟩
    refine hearly _ _ (fun b => ?_) hs
    have hrun := b.finds
    rw [Except.ok.inj (b.named.symm.trans hnamed), hstops] at hrun
    cases (Prod.mk.inj hrun).1

namespace Briefing

variable {task : SyncTask}

/-- **A task that knows everything runs its job**, and gives the descriptor back. -/
theorem runOn_run (b : Briefing task w) :
    runOn task.run w =
      ((runOn b.conclude b.start).1, b.fetched.released (runOn b.conclude b.start).2) := by
  have hrest : runOn (task.runWith b.client b.fetched) b.found = runOn b.conclude b.start := by
    unfold runWith rebuild
    rw [runOn_bind, runOn_within, id, b.reads]
    dsimp only [Except.mapError]
    rw [runOn_bind, runOn_within, id, b.plans]
    dsimp only [Except.mapError]
    rw [runOn_bind, Fetched.onDisk, runOn_within, runOn_forSeed]
    rfl
  unfold run
  rw [runOn_bind, runOn_ofExcept, b.named]
  dsimp only [Except.mapError]
  rw [runOn_bind, b.finds]
  dsimp only
  rw [runOn_bind, runOn_tryCatch, hrest]
  rcases hrun : runOn b.conclude b.start with ⟨cause | outcome, w'⟩
  · dsimp only
    rw [runOn_bind, Fetched.runOn_release]
    rfl
  · dsimp only
    rw [runOn_bind, Fetched.runOn_release]
    rfl

section

variable {b : Briefing task w} {summary : Summary}

theorem runOn_conclude_of_error {cause : Stop RebuildFault}
    (hrun : runOn b.job.run b.start = (.error cause, w')) :
    runOn b.conclude b.start = (.error (cause.map .rebuild), w') := by
  unfold conclude rebuild
  rw [runOn_bind, runOn_within, id, hrun]
  rfl

/-- A digest that the job has compared is not compared again. -/
theorem runOn_conclude_of_verified (hrun : runOn b.job.run b.start = (.ok summary, w'))
    (hverified : summary.isVerified = true) :
    runOn b.conclude b.start = (.ok (b.outcome summary), w') := by
  unfold conclude rebuild
  rw [runOn_bind, runOn_within, id, hrun]
  dsimp only [Except.mapError]
  rw [hverified]
  rfl

theorem runOn_conclude (hrun : runOn b.job.run b.start = (.ok summary, w'))
    (hverified : summary.isVerified = false) :
    runOn b.conclude b.start =
      runOn (confirm summary.path b.order.digest >>= fun _ => pure (b.outcome summary)) w' := by
  unfold conclude rebuild
  rw [runOn_bind, runOn_within, id, hrun]
  dsimp only [Except.mapError]
  rw [hverified]
  rfl

end

end Briefing

end SyncTask
end RangeSync
