import RangeSync.Proofs.Soundness

/-!
# Where the result is asked for

Whoever runs a task asks for the result at a path: that of the output, or that of the seed if there
is none. Paths can be links, and they can meet, so it is not obvious that the result is found there.
An output of its own always is: the path is followed when the output is opened, and followed again
when it is read.

An output that replaces the seed is put into the place where the path of the seed ends, and a link
at that end is replaced itself. But the destination was chosen by where the two paths lead in the
end. So if the seed is given by a link and the output by the path of the file behind that link, the
link becomes the new file, and **the requested path goes on to lead to the old one**
(`RangeSync.SyncTask.linked_seed_keeps_requested_file`). `RangeSync.SyncTask.Briefing.Strays` is
that case, and a seed whose path passes through its own end.

* **The result is found where it was asked for** if the output does not stray
  (`RangeSync.SyncTask.reaches_requested_path`).
* If it does, or if it took the place of the temporary copy of the descriptor, the requested path
  leads to nothing new.
-/

namespace RangeSync

open Act Disk

/-- The bytes have the length and the digest of the outcome. -/
def Outcome.IsOf (o : Outcome) (bytes : List UInt8) : Prop :=
  bytes.length = o.length.toNat ∧ Digest.sha1Hex bytes = o.digest

namespace SyncTask

/-- The path where the result is asked for. -/
def requested (task : SyncTask) : String :=
  task.output.getD task.seed

namespace Briefing

variable {task : SyncTask} {w w' : World} {b : Briefing task w} {o : Outcome}
  {bytes : List UInt8} {s s' : Spot}

/-- **The output strays**: it takes the place of the seed, and the requested path does not end
there. -/
def Strays (b : Briefing task w) : Prop :=
  b.job.destination = .replaceSeed ∧
    ∀ s, w.disk.tree.walk w.disk.cwd false task.seed = .ok s →
      ¬ w.disk.tree.EndsAt w.disk.cwd task.requested s.place

/-- An output does not stray if the requested path leads to the entry that the path of the seed
ends at. -/
theorem not_strays_of_walk
    (hseed : w.disk.tree.walk w.disk.cwd false task.seed = .ok s)
    (hwalk : w.disk.tree.walk w.disk.cwd true task.requested = .ok s') (hopen : s'.IsOpen)
    (hplace : s'.place = s.place) : ¬ b.Strays := by
  rintro ⟨_, hno⟩
  refine hno s hseed ?_
  rw [← hplace]
  exact Tree.endsAt_of_walk hwalk hopen

/-- An output does not stray if it is asked for at the path of the seed, be it a link or not, and
that path does not retrace its end. -/
theorem not_strays_of_seed (hsame : task.requested = task.seed)
    (hseed : w.disk.tree.walk w.disk.cwd false task.seed = .ok s) (hopen : s.IsOpen)
    (hr : ¬ w.disk.tree.Retraces w.disk.cwd task.seed) : ¬ b.Strays := by
  rintro ⟨_, hno⟩
  refine hno s hseed ?_
  rw [hsame]
  exact Tree.endsAt_of_not_retraces hseed hopen hr

/-- **An output that does not stray is found where it was asked for.** -/
theorem Delivers.exists_fileAt (h : b.Delivers o bytes w') (hapart : b.IsApart)
    (hstrays : ¬ b.Strays) : ∃ place, w'.disk.FileAt task.requested place bytes := by
  obtain ⟨s, mode, time, hs, hopen, hoff, hfile⟩ := h.puts hapart
  refine ⟨s.place, mode, time, ?_⟩
  rw [h.cwd]
  rcases hdest : b.job.destination with path | _
  · -- the path was followed, and the file is at its end
    obtain ⟨hout, _⟩ := destinationOn_eq_file hdest
    rw [Job.path_of_file hdest, Job.follows_of_file hdest] at hs
    rw [requested, hout]
    exact Tree.walk_refilled hs hopen hoff hfile
  · rw [Job.path_of_replaceSeed hdest, Job.follows_of_replaceSeed hdest] at hs
    have hends : w.disk.tree.EndsAt w.disk.cwd task.requested s.place := by
      apply Classical.byContradiction
      refine fun hno => hstrays ⟨hdest, fun s' hs' => ?_⟩
      obtain rfl := Except.ok.inj (hs.symm.trans hs')
      exact hno
    exact hends.walk hoff hfile

/-- **An output that strays, or that is removed with the descriptor, does not show** at the
requested path: what is found there was there before. -/
theorem Delivers.fileAt_before (h : b.Delivers o bytes w') (hno : ¬ (b.IsApart ∧ ¬ b.Strays))
    {place : Location} {content : List UInt8}
    (hfile : w'.disk.FileAt task.requested place content) :
    w.disk.FileAt task.requested place content := by
  obtain ⟨mode, time, hw⟩ := hfile
  rw [h.cwd] at hw
  refine ⟨mode, time, ?_⟩
  by_cases hapart : b.IsApart
  · obtain ⟨hdest, hends⟩ : b.Strays := Classical.byContradiction fun hs => hno ⟨hapart, hs⟩
    obtain ⟨s, mode', time', hs, _, hoff, hget⟩ := h.puts hapart
    rw [Job.path_of_replaceSeed hdest, Job.follows_of_replaceSeed hdest] at hs
    exact Tree.walk_of_not_endsAt (hends s hs) hoff hget hw
  · rwa [Tree.walk_congr (h.same hapart)] at hw

end Briefing

/-- **The result is found where it was asked for**, if a task succeeds and its output neither strays
nor takes the place of the temporary copy of the descriptor. Otherwise nothing new is found
there. -/
theorem reaches_requested_path (task : SyncTask) (w : World) :
    task.run.Ends w
      (fun o w' => ∃ (b : Briefing task w) (bytes : List UInt8), o.IsOf bytes ∧
        (b.IsApart → ¬ b.Strays → ∃ place, w'.disk.FileAt task.requested place bytes) ∧
        (¬ (b.IsApart ∧ ¬ b.Strays) → ∀ place content,
          w'.disk.FileAt task.requested place content →
            w.disk.FileAt task.requested place content))
      fun _ _ => True := by
  refine (task.ends_run_delivers w).mono ?_ fun _ _ _ => trivial
  rintro o w' ⟨b, bytes, h⟩
  exact ⟨b, bytes, ⟨h.size, h.sha1⟩, h.exists_fileAt, fun hno _ _ => h.fileAt_before hno⟩

end SyncTask

/-! ### A link to the seed -/

namespace World

theorem walk_link :
    withThreeBytes.disk.tree.walk [] false "/l" = .ok (.taken ["l"] (.link "seed")) :=
  Tree.walk_of_leads (by decide) (by decide : _ = ["l"]) (.link (by decide) rfl rfl)

/-- The seed is found through the link, too. -/
theorem walk_through_link :
    withThreeBytes.disk.tree.walk [] true "/l" =
      .ok (.taken ["seed"] (.file [97, 98, 99] defaultMode none)) := by
  refine Tree.walk_of_leads (by decide) (by decide : _ = ["l"]) ?_
  refine .through (by decide) rfl (by decide) (Or.inr rfl) ?_
  rw [show Walk.steps "seed" ++ [] = ["seed"] by decide]
  exact .file (by decide) rfl

theorem fileAt_link : withThreeBytes.disk.FileAt "/l" ["seed"] [97, 98, 99] :=
  ⟨defaultMode, none, walk_through_link⟩

end World

namespace SyncTask

open World

/-- **Whichever way the seed and the output lead to the seed**, it is replaced by the file of three
bytes. -/
theorem exists_outcome_replacing {seed : String} {output : Option String}
    (hseed : withThreeBytes.disk.FileAt seed ["seed"] [97, 98, 99])
    (hdest : destinationOn withThreeBytes.disk seed output = .replaceSeed) :
    ∃ (b : Briefing (forThreeBytes seed output) .withThreeBytes) (o : Outcome) (w' : World),
      b.IsApart ∧ b.job.destination = .replaceSeed ∧
        runOn (forThreeBytes seed output).run .withThreeBytes = (.ok o, w') ∧
        b.Delivers o [99, 100, 101] w' := by
  have hlocation : (forThreeBytes seed output).location = "/cde.zsync" := rfl
  have hroom : Settings.default.reconstruction.downloadChunkSize.count.toNat <
      Origin.roomLimit := by decide
  obtain ⟨b, htemp, hdigest, hsuits⟩ := exists_briefing_of_threeBytes rfl rfl hlocation rfl hroom
    hseed (Descriptor.read_threeBytesText Digest.isDigest_ofThreeBytes) rfl
    (Descriptor.digest_threeBytes Digest.isDigest_ofThreeBytes) rfl fun _ _ _ => rfl
  have hkept : withThreeBytes.disk.Kept b.start.disk := b.arrives.kept htemp
  have hreplaces : b.job.destination = .replaceSeed := by
    rw [← hdest]
    change destinationOn b.start.disk seed output = _
    simp only [destinationOn, hkept.placeOf?]
  obtain ⟨o, w', hrun, hd⟩ := hsuits.exists_outcome_of_seed hreplaces
    (hdigest.trans Digest.sha1Hex_threeBytes.symm) htemp hseed
  refine ⟨b, o, w', fun temporary e hno => ?_, hreplaces, hrun, hd⟩
  rw [htemp] at hno
  cases hno

/-- A link is replaced by the result if the result is asked for there, and the result is found
through a link that leads to a seed that is none. -/
theorem reaches_requested_path_through_link :
    (∃ o w', runOn (forThreeBytes "/l" none).run .withThreeBytes = (.ok o, w') ∧
      ∃ place bytes, w'.disk.FileAt "/l" place bytes ∧ o.IsOf bytes) ∧
    ∃ o w', runOn (forThreeBytes "/seed" (some "/l")).run .withThreeBytes = (.ok o, w') ∧
      ∃ place bytes, w'.disk.FileAt "/l" place bytes ∧ o.IsOf bytes := by
  constructor
  · have hdest : destinationOn withThreeBytes.disk "/l" none = .replaceSeed := rfl
    obtain ⟨b, o, w', hapart, _, hrun, _⟩ := exists_outcome_replacing fileAt_link hdest
    obtain ⟨b', bytes, his, hfound, _⟩ := (reaches_requested_path _ _).of_ok hrun
    obtain rfl := b'.unique b
    have hstrays : ¬ b'.Strays := Briefing.not_strays_of_seed rfl walk_link trivial
      (Tree.not_retraces_of_file walk_through_link trivial)
    obtain ⟨place, hfile⟩ := hfound hapart hstrays
    exact ⟨o, w', hrun, place, bytes, hfile, his⟩
  · obtain ⟨b, o, w', hapart, _, hrun, _⟩ := exists_outcome_replacing (fileAt_seed _)
      (destinationOn_eq_replaceSeed (fileAt_seed _) fileAt_link)
    obtain ⟨b', bytes, his, hfound, _⟩ := (reaches_requested_path _ _).of_ok hrun
    obtain rfl := b'.unique b
    have hstrays : ¬ b'.Strays :=
      Briefing.not_strays_of_walk (walk_seed _ false) walk_through_link trivial rfl
    obtain ⟨place, hfile⟩ := hfound hapart hstrays
    exact ⟨o, w', hrun, place, bytes, hfile, his⟩

/-- **Without the exception the statement fails**: the seed is given by the link and the output by
the file behind it. The task has an outcome, and the requested path leads to the old file, which
has not the digest of the outcome. -/
theorem linked_seed_keeps_requested_file :
    ∃ o w', runOn (forThreeBytes "/l" (some "/seed")).run .withThreeBytes = (.ok o, w') ∧
      w'.disk.FileAt "/seed" ["seed"] [97, 98, 99] ∧
      ¬ ∃ place bytes, w'.disk.FileAt "/seed" place bytes ∧ o.IsOf bytes := by
  obtain ⟨b, o, w', hapart, hreplaces, hrun, h⟩ := exists_outcome_replacing fileAt_link
    (destinationOn_eq_replaceSeed fileAt_link (fileAt_seed _))
  obtain ⟨s, mode, time, hs, _, hoff, hget⟩ := h.puts hapart
  rw [Job.path_of_replaceSeed hreplaces, Job.follows_of_replaceSeed hreplaces] at hs
  -- the link is what was replaced
  obtain rfl := Except.ok.inj (walk_link.symm.trans hs)
  have hold : w'.disk.FileAt "/seed" ["seed"] [97, 98, 99] := by
    refine ⟨defaultMode, none, ?_⟩
    rw [h.cwd]
    exact Tree.walk_of_name (by decide) (by decide) (by decide) (hoff ["seed"] (by decide))
  refine ⟨o, w', hrun, hold, ?_⟩
  rintro ⟨place, content, hfile, _, hdigest⟩
  -- the old file is not the one that was delivered
  obtain ⟨_, _, hw⟩ := hfile
  obtain ⟨_, _, _, hnode⟩ := hold.eq_of_walk hw
  cases hnode
  exact Digest.sha1Hex_seed_ne ((hdigest.trans h.sha1.symm).trans Digest.sha1Hex_threeBytes)

end SyncTask
end RangeSync
