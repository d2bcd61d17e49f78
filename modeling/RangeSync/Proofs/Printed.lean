import RangeSync.Planner
import RangeSync.Proofs.Download

/-!
# What comes of a planner program

What a planner program prints is a plan or it is not, and nothing but its exit and its output tells.
The ranges of a plan are not looked at here: they may be anything that fits into 64 bits, and
whether they fit the target is asked when the target is put together.

Still there is a step that looks at them. If entries about the ordinary course of things are made at
all, then one is made about the plan, and it has the totals of its lengths. A total that leaves its
64 bits is a check that fails; so does the length of a range up to the last offset of all, whose end
is computed on the way. `RangeSync.Plan.HasTotals` says that this does not happen.

**A program is taken at its word** (`RangeSync.Planner.takes_what_is_printed`): the plan is what it
printed, and it fails in no other way than a planner can fail – but for that entry. A short plan is
enough to see it (`RangeSync.Planner.crashes_on_last_offset`).
-/

namespace RangeSync

open Act Text

/-! ### Totals -/

/-- A range has a length unless it ends at the last offset of all. -/
theorem DownloadRange.length?_ne_none_iff {d : DownloadRange} :
    d.length? ≠ none ↔ d.last.toNat + 1 < UInt64.size := by
  rw [length?, Ne, Option.map_eq_none_iff, word?_eq_none, Nat.not_le]

namespace Plan

variable {p : Plan}

/-- **The totals of the lengths fit into their 64 bits**, and so do the ends of the ranges that are
downloaded. -/
structure HasTotals (p : Plan) : Prop where
  ends : ∀ d ∈ p.download, d.last.toNat + 1 < UInt64.size
  reused : p.reused < UInt64.size
  downloaded : p.downloaded < UInt64.size

/-- **There is an entry about a plan exactly if it has totals.** -/
theorem hasTotals_iff : p.HasTotals ↔ ∃ entry, Planner.report? p = some entry := by
  constructor
  · intro h
    obtain ⟨reused, hr⟩ := reuseTotal?_isSome h.reused
    obtain ⟨downloaded, hd⟩ := Job.downloadTotal?_isSome
      (fun d hd => DownloadRange.length?_ne_none_iff.mpr (h.ends d hd)) h.downloaded
    rw [Planner.report?, hr, hd]
    exact ⟨_, rfl⟩
  · rintro ⟨entry, h⟩
    obtain ⟨reused, hr, h⟩ := Option.bind_eq_some_iff.mp h
    obtain ⟨downloaded, hd, _⟩ := Option.bind_eq_some_iff.mp h
    constructor
    · intro d hmem
      exact DownloadRange.length?_ne_none_iff.mp (Job.length?_ne_none_of_total hd d hmem)
    · rw [← toNat_reuseTotal? hr]
      exact reused.toNat_lt_size
    · rw [← Job.toNat_downloadTotal? hd]
      exact downloaded.toNat_lt_size

end Plan

/-! ### Programs -/

theorem Exit.isSuccess_iff {exit : Exit} : exit.isSuccess = true ↔ exit = .status 0 := by
  unfold isSuccess
  split
  · exact ⟨fun _ => rfl, fun _ => rfl⟩
  · rename_i hother
    exact ⟨nofun, fun heq => absurd heq hother⟩

/-- A command is run to its end. -/
def World.Runs (w : World) (command : Command) (finished : Finished) : Prop :=
  command.isPassable = true ∧ w.programs.run command w.disk = .ok finished

/-- **The program has printed a plan**: it reports success, and the text that it printed, without
the blanks around it, is read as that plan. -/
def Finished.Prints (finished : Finished) (p : Plan) : Prop :=
  finished.exit = .status 0 ∧ Plan.ofJson (trimmed (decodeLossy finished.stdout)) = .ok p

namespace Planner

variable {name : String} {finished : Finished} {p : Plan}

theorem planOf_eq_ok_iff : planOf name finished = .ok p ↔ finished.Prints p := by
  unfold planOf Finished.Prints printed
  rw [← Exit.isSuccess_iff]
  split
  · rename_i hsuccess
    rcases Plan.ofJson (trimmed (decodeLossy finished.stdout)) with reason | plan
    · exact ⟨nofun, nofun⟩
    · exact ⟨fun h => ⟨hsuccess, Except.ok.inj h ▸ rfl⟩, fun h => Except.ok.inj h.2 ▸ rfl⟩
  · rename_i hfailed
    exact ⟨nofun, fun h => absurd h.1 hfailed⟩

/-- **Starting a command** ends with what it comes to, or as a planner fails. -/
theorem ends_start (command : Command) (w : World) :
    (start command).Ends w
      (fun finished w' => w.Runs command finished ∧ w'.isVerbose = w.isVerbose)
      fun cause _ => (∃ fault, cause = .failed (.planner fault)) ∧
        ∀ finished, ¬ w.Runs command finished := by
  have hends : (command.start w.disk).Ends w.programs
      (fun finished _ => w.Runs command finished)
      fun _ _ => ∀ finished, ¬ w.Runs command finished := by
    unfold Command.start World.Runs
    rw [ends_when]
    split
    · rename_i hzero
      exact fun finished hruns => by simp [hruns.1] at hzero
    · rename_i hpass
      rw [ends_pure, ends_bind, ends_get]
      rcases hrun : w.programs.run command w.disk with kind | finished
      · exact fun finished hruns => nomatch hruns.2
      · exact ⟨by simpa using hpass, rfl⟩
  unfold start
  rw [ends_bind, ends_get]
  dsimp only
  rcases hrun : runOn (command.start w.disk) w.programs with ⟨fault | finished, programs⟩
  · exact ⟨⟨_, rfl⟩, hends.of_error hrun⟩
  · exact ⟨hends.of_ok hrun, rfl⟩

/-- **A plan that was printed is the plan**, unless an entry is to be made about it and it has no
totals. -/
theorem ends_plan_of_prints {arguments : List String} {descriptor seed : String} {w : World}
    (hruns : w.Runs ⟨name, arguments ++ [descriptor, seed]⟩ finished)
    (hprints : finished.Prints p) :
    ((program name arguments).plan descriptor seed).Ends w
      (fun p' _ => p' = p ∧ (w.isVerbose = true → p.HasTotals))
      fun cause _ => cause = .crashed ∧ w.isVerbose = true ∧ ¬ p.HasTotals := by
  unfold plan
  rw [ends_bind]
  refine (ends_start _ w).mono ?_ fun _ _ ⟨_, hno⟩ => absurd hruns (hno finished)
  rintro finished' w₁ ⟨hruns', hverbose⟩
  obtain rfl := Except.ok.inj (hruns'.2.symm.trans hruns.2)
  rw [ends_bind, ends_ofExcept, planOf_eq_ok_iff.mpr hprints]
  dsimp only
  rw [ends_bind, ends_get, hverbose]
  split
  · rename_i hnotes
    rw [ends_bind, ends_orCrash]
    rcases hreport : report? p with _ | entry
    · refine ⟨rfl, hnotes, fun htotals => ?_⟩
      obtain ⟨entry, hentry⟩ := Plan.hasTotals_iff.mp htotals
      cases hreport.symm.trans hentry
    · exact ⟨rfl, fun _ => Plan.hasTotals_iff.mpr ⟨entry, hreport⟩⟩
  · rename_i hquiet
    exact ⟨rfl, fun hnotes => absurd hnotes hquiet⟩

/-- Where no plan is printed, the planner has failed. -/
theorem ends_plan_of_unprinted {arguments : List String} {descriptor seed : String} {w : World}
    (hno : ∀ finished p, w.Runs ⟨name, arguments ++ [descriptor, seed]⟩ finished →
      ¬ finished.Prints p) :
    ((program name arguments).plan descriptor seed).Ends w (fun _ _ => False)
      fun cause _ => ∃ fault, cause = .failed (.planner fault) := by
  unfold plan
  rw [ends_bind]
  refine (ends_start _ w).mono ?_ fun _ _ ⟨hfault, _⟩ => hfault
  rintro finished w₁ ⟨hruns, _⟩
  rw [ends_bind, ends_ofExcept]
  rcases hplan : planOf name finished with fault | p
  · exact ⟨fault, rfl⟩
  · exact absurd (planOf_eq_ok_iff.mp hplan) (hno finished p hruns)

/-- **The plan is what the program printed**, whatever its ranges are. If the program does not run,
or does not print a plan, then it is a planner that failed. The one other way to end is that a total
of the plan leaves its 64 bits, and then only if an entry is made about it. -/
theorem takes_what_is_printed (name : String) (arguments : List String)
    (descriptor seed : String) (w : World) :
    ((program name arguments).plan descriptor seed).Ends w
      (fun p _ => (w.isVerbose = true → p.HasTotals) ∧
        ∃ finished, w.Runs ⟨name, arguments ++ [descriptor, seed]⟩ finished ∧ finished.Prints p)
      fun cause _ =>
        ((∃ fault, cause = .failed (.planner fault)) ∧
          ∀ finished p, w.Runs ⟨name, arguments ++ [descriptor, seed]⟩ finished →
            ¬ finished.Prints p) ∨
        (cause = .crashed ∧ w.isVerbose = true ∧
          ∃ finished p, w.Runs ⟨name, arguments ++ [descriptor, seed]⟩ finished ∧
            finished.Prints p ∧ ¬ p.HasTotals) := by
  by_cases hprints : ∃ finished p,
      w.Runs ⟨name, arguments ++ [descriptor, seed]⟩ finished ∧ finished.Prints p
  · obtain ⟨finished, p, hruns, hprints⟩ := hprints
    refine (ends_plan_of_prints hruns hprints).mono ?_ ?_
    · rintro _ _ ⟨rfl, htotals⟩
      exact ⟨htotals, finished, hruns, hprints⟩
    · rintro cause _ ⟨hcause, hnotes, hno⟩
      exact Or.inr ⟨hcause, hnotes, finished, p, hruns, hprints, hno⟩
  · have hno (finished : Finished) (p : Plan)
        (hruns : w.Runs ⟨name, arguments ++ [descriptor, seed]⟩ finished) :
        ¬ finished.Prints p := fun h => hprints ⟨finished, p, hruns, h⟩
    exact (ends_plan_of_unprinted hno).mono (fun _ _ h => h.elim)
      fun cause _ hfault => Or.inl ⟨hfault, hno⟩

end Planner

/-- A world where entries are made, and where a program prints a plan with one range, up to the last
offset that there is. -/
def World.printing : World where
  disk := .ofTree [] ⟨[]⟩
  net := ⟨.unreachable, []⟩
  programs := ⟨fun _ _ => .ok ⟨.status 0,
    encode "\x7b\"download\": [[1, 18446744073709551615]]\x7d", []⟩, []⟩
  progress := none
  log := []
  isVerbose := true

namespace Planner

/-- **A plan that is printed can crash the run**, although its only range has a length that fits. -/
theorem crashes_on_last_offset :
    ∃ finished, World.printing.Runs ⟨"plan", ["/d", "/s"]⟩ finished ∧
      finished.Prints ⟨none, [], [⟨1, 0xFFFFFFFFFFFFFFFF⟩]⟩ ∧
      ∃ w, runOn ((program "plan" []).plan "/d" "/s") .printing = (.error .crashed, w) := by
  have hread : (Plan.ofJson (trimmed (decodeLossy
      (encode "\x7b\"download\": [[1, 18446744073709551615]]\x7d")))).toOption =
        some ⟨none, [], [⟨1, 0xFFFFFFFFFFFFFFFF⟩]⟩ := by decide +kernel
  have hruns : World.printing.Runs ⟨"plan", [] ++ ["/d", "/s"]⟩ _ := ⟨by decide, rfl⟩
  have hprints : Finished.Prints ⟨.status 0,
      encode "\x7b\"download\": [[1, 18446744073709551615]]\x7d", []⟩
      ⟨none, [], [⟨1, 0xFFFFFFFFFFFFFFFF⟩]⟩ := by
    refine ⟨rfl, ?_⟩
    dsimp only
    generalize Plan.ofJson _ = read at hread ⊢
    cases read with
    | error reason => cases hread
    | ok plan => rw [Option.some.inj hread]
  have hno : ¬ Plan.HasTotals ⟨none, [], [⟨1, 0xFFFFFFFFFFFFFFFF⟩]⟩ := fun h =>
    absurd (h.ends _ List.mem_cons_self) (by decide)
  obtain ⟨cause, w, hrun, rfl, _⟩ := ((ends_plan_of_prints hruns hprints).mono
    (fun _ _ h => hno (h.2 rfl)) fun _ _ h => h).exists_error
  exact ⟨_, hruns, hprints, w, hrun⟩

end Planner
end RangeSync
