import RangeSync.Proofs.Folder

/-!
# The one entry that a commit changes

A staged output is committed in steps: a temporary file is created beside the seed, it is filled and
made durable, it takes on the permission bits of the file that the path of the seed leads to, and it
is moved. Each step can fail when the ones before it have left their traces, so it is not obvious
what a commit leaves behind, and in which places.

The path of a seed is followed in two ways. The permission bits are those of the file at the end of
all links, but the move replaces the entry at which the path itself ends, be it a link.

* **A commit changes that entry and no other one** (`RangeSync.Writer.changes_one_entry`): it
  becomes a file with the staged bytes, and a file behind a link stays what it is. A commit that
  fails, and a discard, change nothing; and a commit fails only where an operation is refused or the
  path does not end at an entry that a file can have.
* Afterwards the path leads to the new file, if it was one that a seed can be at
  (`RangeSync.Tree.MayHoldSeed`). The links that are left out lead to folders, and a path can pass
  such a link before it ends at it (`RangeSync.Path.crossing`).
-/

namespace RangeSync

open Act Disk

namespace Tree

open Walk

variable {t t' : Tree} {cwd : Location} {path : String} {s : Spot} {content : List UInt8}
  {mode : Nat} {time : Option Time.Instant}

/-- **A seed can be at the path**: nothing is there, or a file, or a link that does not lead to a
folder, however many links are followed behind it. -/
def MayHoldSeed (t : Tree) (cwd : Location) (path : String) : Prop :=
  ∃ s, t.walk cwd false path = .ok s ∧ s.IsOpen ∧
    ∀ place target, s = .taken place (.link target) → ∀ links folder,
      go t true links (start place.dropLast target) (steps target) ≠ .ok (.taken folder .folder)

/-- A path that leads to a file, or to a place for one, is one that a seed can be at. -/
theorem mayHoldSeed_of_walk (h : t.walk cwd true path = .ok s) (hs : s.IsOpen) :
    t.MayHoldSeed cwd path := by
  rcases walk_follow h with hlast | ⟨place, target, hlink⟩
  · refine ⟨s, hlast, hs, ?_⟩
    rintro place target rfl
    exact absurd rfl (leads_of_walk h).not_link
  · refine ⟨_, hlink, trivial, ?_⟩
    rintro _ _ ⟨⟩ links folder hfolder
    -- the link leads to what the path leads to
    obtain ⟨left, hbehind⟩ := go_behind_link hlink h
    obtain rfl := go_unique hbehind hfolder
    exact hs

/-- **A path that a seed can be at does not retrace its end**: what is passed on the way leads to a
folder. -/
theorem MayHoldSeed.not_retraces (h : t.MayHoldSeed cwd path) : ¬ t.Retraces cwd path := by
  intro hr
  obtain ⟨s, hs, hopen, hlink⟩ := h
  obtain ⟨left, folder, name, rest, hq, hn, hall, hlast⟩ := ends_or_retraces hs hopen
  rcases hlast with ⟨_, hc⟩ | ⟨hrest, _, target, hnode⟩
  · exact hc hr
  obtain ⟨place, rfl⟩ : ∃ place, s = .taken place (.link target) := by
    cases s with
    | taken place node => cases hnode; exact ⟨place, rfl⟩
    | vacant => cases hnode
  have hplace : place = folder ++ [name] := hq
  have hget : t.get? (folder ++ [name]) = some (.link target) := by
    rw [← hplace]
    exact get?_of_walk hs hopen
  have hgo : go t false left folder (name :: rest) = .ok (.taken place (.link target)) :=
    (hall t (SameOff.refl _ t)).symm.trans ((walk_eq_go hs t false).symm.trans hs)
  cases left with
  | zero =>
    rw [go_name hn, hget] at hgo
    simp [hrest] at hgo
  | succ left =>
    rcases he : target.isEmpty with _ | _
    · -- the link is passed, with steps behind it
      rw [go_through hn hget he (Or.inl hrest)] at hgo
      obtain ⟨_, below, hfront, _⟩ := (leads_of_go hgo).cut rfl hrest
      refine hlink place target rfl left below ?_
      rw [hplace, List.dropLast_concat]
      exact go_of_leads hfront
    · rw [go_name hn, hget] at hgo
      simp [hrest, he] at hgo

/-- A path whose end is replaced by a file leads to that file, whether a last link is followed or
not, unless it retraces its end. -/
theorem walk_supplanted (h : t.walk cwd false path = .ok s) (hs : s.IsOpen)
    (hr : ¬ Retraces t cwd path) (ht : SameOff s.place t t')
    (hf : t'.get? s.place = some (.file content mode time)) (follow : Bool) :
    t'.walk cwd follow path = .ok (.taken s.place (.file content mode time)) := by
  cases follow with
  | true => exact walk_replaced h hs hr ht hf
  | false =>
    -- a file stands where the path ends, and it could be there only behind a link
    rcases walk_follow (walk_replaced h hs hr ht hf) with hlast | ⟨place, target, hlink⟩
    · exact hlast
    · obtain ⟨left, folder, name, rest, hq, hn, hall, hend⟩ := ends_or_retraces h hs
      obtain ⟨rfl, _⟩ := hend.resolve_right fun hc => hr hc.2.1
      rw [walk_eq_go h, hall t' ht, go_file hn (hq ▸ hf), if_pos rfl] at hlink
      cases hlink

end Tree

namespace Writer

variable {d d' : Disk} {path : String} {bytes : List UInt8}

/-- A path can be supplanted exactly if it ends at an entry, or at a place for one, that is no
folder. -/
theorem canSupplant_iff :
    CanSupplant d path ↔ ∃ s, d.tree.walk d.cwd false path = .ok s ∧ s.IsOpen :=
  ⟨fun h => h.2.2.2, fun ⟨_, hs, hopen⟩ => canSupplant_of_walk hs hopen⟩

/-- **One entry was replaced**: the one at which the path ended is now a file with these bytes and
permission bits. -/
structure Replaces (d : Disk) (path : String) (site : Location) (bytes : List UInt8) (mode : Nat)
    (d' : Disk) : Prop where
  cwd : d'.cwd = d.cwd
  ended : ∃ s, d.tree.walk d.cwd false path = .ok s ∧ s.IsOpen ∧ s.place = site
  file : ∃ time, d'.tree.get? site = some (.file bytes mode time)
  /-- Everything else is as before; so nothing was added, and nothing is missing. -/
  rest : ∀ place, place ≠ site → d'.tree.get? place = d.tree.get? place
  /-- The permission bits are those of the file that the path led to, if it led to one. -/
  bits : ∀ place content old time,
    d.tree.walk d.cwd true path = .ok (.taken place (.file content old time)) → mode = old
  /-- A file that the path led to through a link is still there. -/
  behind : ∀ target place content old time,
    d.tree.walk d.cwd false path = .ok (.taken site (.link target)) →
      d.tree.walk d.cwd true path = .ok (.taken place (.file content old time)) →
        d'.tree.get? place = some (.file content old time)
  /-- The path leads to the new file, if a seed could be at it. -/
  found : d.tree.MayHoldSeed d.cwd path → ∀ follow, ∃ time,
    d'.tree.walk d'.cwd follow path = .ok (.taken site (.file bytes mode time))

/-- What a commit does to the tree, entry by entry. -/
theorem Commits.replaces (h : Commits d path bytes d') :
    ∃ site mode, Replaces d path site bytes mode d' := by
  obtain ⟨⟨s, mode, time, hs, hopen, hoff, hfile, hmode⟩, halong⟩ := h
  refine ⟨s.place, mode, halong.cwd, ⟨s, hs, hopen, rfl⟩, ⟨time, hfile⟩, hoff, hmode, ?_, ?_⟩
  · intro target place content old time' hlink hbehind
    have hget := Tree.get?_of_walk hbehind trivial
    have hsite := Tree.get?_of_walk hlink trivial
    -- the file is in another place than the link
    refine (hoff place ?_).trans hget
    rintro rfl
    cases hget.symm.trans hsite
  · intro hseed follow
    refine ⟨time, ?_⟩
    rw [halong.cwd]
    exact Tree.walk_supplanted hs hopen hseed.not_retraces hoff hfile follow

/-- **A commit of a staged output changes one entry**: the one at which its path ends. A commit that
fails has changed nothing, and it fails only if an operation is refused or the path does not end at
an entry that a file can have. A discard changes nothing. -/
theorem changes_one_entry (spool : Spool) (path : String) (length : UInt64) (d : Disk) :
    commit.Ends (⟨.staged spool, path, length⟩, d)
        (fun answer s' => answer = path ∧
          ∃ site mode, Replaces d path site spool.bytes mode s'.2)
        (fun kind s' => d.tree.Same s'.2.tree ∧
          (d.Refuses kind ∨ ¬ ∃ s, d.tree.walk d.cwd false path = .ok s ∧ s.IsOpen)) ∧
      runOn (discard ⟨.staged spool, path, length⟩) d = (.ok (), d) := by
  constructor
  · refine (ends_commit_of_staged rfl d).mono ?_ ?_
    · rintro answer ⟨w', d'⟩ ⟨rfl, hcommits⟩
      exact ⟨rfl, hcommits.replaces⟩
    · rintro kind ⟨w', d'⟩ ⟨hspares, hr⟩
      exact ⟨hspares.2, hr.imp_right fun hno hs => hno (canSupplant_iff.mpr hs)⟩
  · rw [discard_of_staged rfl]
    rfl

/-- A file that only its owner can read and write, and a link that leads to it. -/
def linkedSeed : Disk :=
  .ofTree [] ⟨[(["real"], .file [97, 98, 99] 0o600 none), (["l"], .link "real")]⟩

/-- Committing over the link puts the new bytes into its place, with the bits of the file behind
it, and leaves that file alone. The path leads to the new file then. -/
theorem changes_one_entry_linked :
    ∃ s', runOn commit (⟨.staged ⟨[110, 101, 119], 3, 8, false⟩, "/l", 3⟩, linkedSeed) =
        (.ok "/l", s') ∧
      (∃ time, s'.2.tree.get? ["l"] = some (.file [110, 101, 119] 0o600 time)) ∧
      s'.2.tree.get? ["real"] = some (.file [97, 98, 99] 0o600 none) ∧
      s'.2.FileAt "/l" ["l"] [110, 101, 119] := by
  have hlink : linkedSeed.tree.walk linkedSeed.cwd false "/l" =
      .ok (.taken ["l"] (.link "real")) :=
    Tree.walk_of_leads (by decide) (by decide : _ = ["l"]) (.link (by decide) rfl rfl)
  have hfile : linkedSeed.tree.walk linkedSeed.cwd true "/l" =
      .ok (.taken ["real"] (.file [97, 98, 99] 0o600 none)) := by
    refine Tree.walk_of_leads (by decide) (by decide : _ = ["l"]) ?_
    refine .through (by decide) rfl (by decide) (Or.inr rfl) ?_
    rw [show Walk.steps "real" ++ [] = ["real"] by decide]
    exact .file (by decide) rfl
  have hends := (changes_one_entry ⟨[110, 101, 119], 3, 8, false⟩ "/l" 3 linkedSeed).1
  rcases hrun : runOn commit (⟨.staged ⟨[110, 101, 119], 3, 8, false⟩, "/l", 3⟩, linkedSeed) with
    ⟨kind | answer, s'⟩
  · -- nothing is refused, and a file can be put where the path ends
    obtain ⟨_, hr | hno⟩ := hends.of_error hrun
    · exact absurd hr (isObliging_ofTree _ _ kind)
    · exact absurd ⟨_, hlink, trivial⟩ hno
  · obtain ⟨rfl, site, mode, h⟩ := hends.of_ok hrun
    obtain ⟨s, hs, _, rfl⟩ := h.ended
    obtain rfl := Except.ok.inj (hs.symm.trans hlink)
    obtain rfl := h.bits _ _ _ _ hfile
    have hseed : linkedSeed.tree.MayHoldSeed linkedSeed.cwd "/l" :=
      Tree.mayHoldSeed_of_walk hfile trivial
    exact ⟨s', rfl, h.file, h.behind _ _ _ _ _ hlink hfile, 0o600, h.found hseed true⟩

end Writer
end RangeSync
