import RangeSync.CommandLine.Invocation
import RangeSync.Proofs.RoundTrip

/-!
# What success means

A task that answers with an outcome says that there is a file now, with a length and a digest, and
how many bytes of it were reused and downloaded. **All of this is true**
(`RangeSync.success_is_sound`), whatever the descriptor, the planner and the server had to say: the
length and the digest are those of the descriptor, the counts are the sums over the plan, and the
path of the outcome leads to a file with that length and that digest. The program ends with status
zero only then.

Only the last of this can fail, and it is said exactly when. Under the strict policy nobody looks
for the file once it has been put into its place. If the seed is a link that its own path passes
through, replacing it cuts the path off, and the path of the outcome leads nowhere
(`RangeSync.SyncTask.Briefing.Breaks`); under the advisory policy such a run fails. And an output in
the place of the temporary copy of the descriptor is removed with it
(`RangeSync.SyncTask.Briefing.IsApart`).
-/

namespace RangeSync

open Act Disk

/-! ### Digests -/

namespace Digest

/-- Forty lowercase hexadecimal digits. -/
def IsCanonical (digest : String) : Prop :=
  digest.toList.length = 40 ∧
    ∀ c ∈ digest.toList, ('0' ≤ c ∧ c ≤ '9') ∨ ('a' ≤ c ∧ c ≤ 'f')

theorem hexDigit_lowercase : ∀ n < 16,
    ('0' ≤ Text.hexDigit n ∧ Text.hexDigit n ≤ '9') ∨
      ('a' ≤ Text.hexDigit n ∧ Text.hexDigit n ≤ 'f') := by
  decide

theorem length_hex (bytes : List UInt8) :
    (Text.hex bytes).toList.length = 2 * bytes.length := by
  rw [Text.hex, String.toList_ofList]
  induction bytes with
  | nil => rfl
  | cons b rest ih =>
    rw [List.flatMap_cons, List.length_append, ih, List.length_cons]
    simp only [List.length_cons, List.length_nil]
    omega

theorem length_sha1 (message : List UInt8) : (sha1 message).length = 20 := by
  rw [sha1, Chain.words]
  rfl

/-- Twenty bytes are printed with forty lowercase hexadecimal digits. -/
theorem isCanonical_hex {bytes : List UInt8} (h : bytes.length = 20) :
    IsCanonical (Text.hex bytes) := by
  constructor
  · rw [length_hex, h]
  · intro c hc
    rw [Text.hex, String.toList_ofList, List.mem_flatMap] at hc
    obtain ⟨byte, _, hc⟩ := hc
    have hbyte : byte.toNat < 256 := byte.toNat_lt
    rcases List.mem_cons.mp hc with rfl | hc
    · exact hexDigit_lowercase _ (by omega)
    · rw [List.mem_singleton.mp hc]
      exact hexDigit_lowercase _ (by omega)

/-- **A digest is printed with forty lowercase hexadecimal digits.** -/
theorem isCanonical_sha1Hex (message : List UInt8) : IsCanonical (sha1Hex message) :=
  isCanonical_hex (length_sha1 message)

end Digest

/-! ### Outcomes -/

/-- The path of the outcome leads to a file with the length and the digest of the outcome. -/
def Outcome.IsFoundIn (o : Outcome) (d : Disk) : Prop :=
  ∃ place bytes, d.FileAt o.summary.path place bytes ∧ bytes.length = o.length.toNat ∧
    Digest.sha1Hex bytes = o.digest

namespace SyncTask.Briefing

variable {task : SyncTask} {w w' : World} {b : Briefing task w} {o : Outcome}
  {bytes : List UInt8}

/-- **The outcome is what the descriptor and the plan say.** -/
structure Reports (b : Briefing task w) (o : Outcome) : Prop where
  descriptor : ∃ place e d rest,
    b.found.disk.tree.walk b.found.disk.cwd true b.fetched.path = .ok (.taken place e) ∧
      Descriptor.read (b.found.disk.bytesAt place) = .ok (d, rest) ∧
      d.length = .ok o.length ∧ d.digest = .ok o.digest
  digits : Digest.IsCanonical o.digest
  reused : o.summary.reused.toNat = b.plan.reused
  downloaded : o.summary.downloaded.toNat = b.plan.downloaded
  requests : o.summary.requests = b.plan.download.length

/-- **The outcome is sound**: it says what the descriptor and the plan say, and its path leads to
the file, unless the path was cut off or the file was removed with the descriptor. -/
structure IsSound (b : Briefing task w) (o : Outcome) (w' : World) : Prop where
  reports : b.Reports o
  found : o.IsFoundIn w'.disk ↔ b.IsApart ∧ ¬ b.Breaks

/-- What is delivered is sound. -/
theorem Delivers.isSound (h : b.Delivers o bytes w') : b.IsSound o w' := by
  constructor
  · obtain ⟨_, place, e, d, rest, log, hw, hread, horder⟩ :=
      (ends_order b.fetched b.found).of_ok b.reads
    obtain ⟨hlength, hdigest, _⟩ := Order.of_ofDescriptor horder
    have hdigits : Digest.IsCanonical o.digest := by
      rw [← h.sha1]
      exact Digest.isCanonical_sha1Hex bytes
    refine ⟨⟨place, e, d, rest, hw, hread, ?_, ?_⟩, hdigits, h.reused, h.downloaded, h.requests⟩
    · rw [h.length]
      exact hlength
    · rw [h.digest]
      exact hdigest
  · constructor
    · rintro ⟨place, content, hfile, _⟩
      exact Classical.byContradiction fun hno => h.lost hno place content hfile
    · rintro ⟨hapart, hbreaks⟩
      obtain ⟨place, hfile⟩ := h.found hapart hbreaks
      exact ⟨place, bytes, hfile, h.size, h.sha1⟩

end SyncTask.Briefing

/-! ### The program -/

namespace Invocation

variable {arguments : List String} {a : Arguments} {env : Environment} {home : String}
  {w : World}

/-- The world in which the program runs its task. -/
def start (a : Arguments) (env : Environment) (home : String) (w : World) : World :=
  let (settings, log) := a.settings env
  let target := LogTarget.ofSettings home w.disk.cwd.toPath productVersion settings.log
  { w with
    disk := (target.prepare.runOn w.disk).2
    progress := some (Tracker.fresh "" a.sink)
    log := w.log ++ log }

/-- The task of the program. -/
def task (a : Arguments) (env : Environment) : SyncTask :=
  a.task (a.settings env).1

/-- **The status is zero only if the task has an outcome.** -/
theorem exists_outcome_of_status (hread : Arguments.read arguments = .ok a)
    (hstatus : (run arguments env home w).1.status = 0) :
    ∃ o, runOn (task a env).run (start a env home w) =
      (.ok o, (run arguments env home w).2) := by
  have hrun : run arguments env home w = perform a env home w := by
    rw [run, hread]
  rw [hrun] at hstatus ⊢
  have hworld : (perform a env home w).2 =
      (runOn (task a env).run (start a env home w)).2 := rfl
  have hverdict : (perform a env home w).1.status =
      (verdict a.location (runOn (task a env).run (start a env home w)).1).1 := rfl
  rw [hworld]
  rw [hverdict] at hstatus
  rcases hresult : runOn (task a env).run (start a env home w) with ⟨(fault | _) | o, w'⟩
  · rw [hresult] at hstatus
    cases hstatus
  · rw [hresult] at hstatus
    cases hstatus
  · exact ⟨o, rfl⟩

/-- A task with an outcome ends the program with status zero. -/
theorem status_of_outcome {o : Outcome} {w' : World} (hread : Arguments.read arguments = .ok a)
    (hrun : runOn (task a env).run (start a env home w) = (.ok o, w')) :
    (run arguments env home w).1.status = 0 := by
  have hverdict : (perform a env home w).1.status =
      (verdict a.location (runOn (task a env).run (start a env home w)).1).1 := rfl
  rw [run, hread]
  dsimp only
  rw [hverdict, hrun]
  rfl

end Invocation

/-- **Success is sound.** If a task answers with an outcome, the outcome is sound; and the program,
if it can read its arguments, ends with status zero only if its task has such an outcome. -/
theorem success_is_sound (task : SyncTask) (arguments : List String) (env : Environment)
    (home : String) (w : World) :
    task.run.Ends w (fun o w' => ∃ b : SyncTask.Briefing task w, b.IsSound o w')
      (fun _ _ => True) ∧
    ∀ a, Arguments.read arguments = .ok a → (Invocation.run arguments env home w).1.status = 0 →
      ∃ o, ∃ b : SyncTask.Briefing (Invocation.task a env) (Invocation.start a env home w),
        runOn (Invocation.task a env).run (Invocation.start a env home w) =
          (.ok o, (Invocation.run arguments env home w).2) ∧
        b.IsSound o (Invocation.run arguments env home w).2 := by
  have hsound (task : SyncTask) (w : World) : task.run.Ends w
      (fun o w' => ∃ b : SyncTask.Briefing task w, b.IsSound o w') fun _ _ => True := by
    refine (task.ends_run_delivers w).mono ?_ fun _ _ _ => trivial
    rintro o w' ⟨b, bytes, h⟩
    exact ⟨b, h.isSound⟩
  refine ⟨hsound task w, ?_⟩
  intro a hread hstatus
  obtain ⟨o, hrun⟩ := Invocation.exists_outcome_of_status hread hstatus
  obtain ⟨b, hb⟩ := (hsound _ _).of_ok hrun
  exact ⟨o, b, hrun, hb⟩

/-! ### A seed that is replaced -/

/-- A program that prints a plan. -/
theorem Planner.runOn_plan {name descriptor seed : String} {arguments : List String} {w : World}
    {plan : Plan} {finished : Finished}
    (hpass : Command.isPassable ⟨name, arguments ++ [descriptor, seed]⟩ = true)
    (hrun : w.programs.run ⟨name, arguments ++ [descriptor, seed]⟩ w.disk = .ok finished)
    (hplan : Planner.planOf name finished = .ok plan) (hverbose : w.isVerbose = false) :
    (runOn ((Planner.program name arguments).plan descriptor seed) w).1 = .ok plan := by
  have hstart : (Planner.start ⟨name, arguments ++ [descriptor, seed]⟩).Ends w
      (fun f w' => f = finished ∧ w'.isVerbose = w.isVerbose) fun _ _ => False := by
    have hcommand : (Command.start ⟨name, arguments ++ [descriptor, seed]⟩ w.disk).Ends w.programs
        (fun f _ => f = finished) fun _ _ => False := by
      unfold Command.start
      rw [hpass, ends_when, if_neg (by decide), ends_pure, ends_bind, ends_get, hrun]
      rfl
    obtain ⟨f, programs, hends, rfl⟩ := hcommand.exists_ok
    unfold Planner.start
    rw [ends_bind, ends_get]
    dsimp only
    rw [hends, ends_bind, ends_set]
    exact ⟨rfl, rfl⟩
  have hends : ((Planner.program name arguments).plan descriptor seed).Ends w
      (fun p _ => p = plan) fun _ _ => False := by
    unfold Planner.plan
    rw [ends_bind]
    refine hstart.mono ?_ fun _ _ hno => hno
    rintro f w' ⟨rfl, hsame⟩
    rw [ends_bind, ends_ofExcept, hplan]
    dsimp only
    rw [ends_bind, ends_get, hsame, hverbose]
    rfl
  obtain ⟨p, w', hrun', rfl⟩ := hends.exists_ok
  rw [hrun']

/-- The arguments that ask for the file of three bytes in the place of the seed. -/
def Arguments.forThreeBytes : Arguments :=
  ⟨"/cde.zsync", "/seed", none, false, none, false⟩

namespace Invocation

theorem settings_forThreeBytes : (Arguments.forThreeBytes.settings ⟨[]⟩).1 = .default := by
  decide +kernel

theorem task_forThreeBytes : task .forThreeBytes ⟨[]⟩ =
    ⟨"/cde.zsync", "/seed", none, .default, .ofSettings Settings.default.planner⟩ := by
  rw [task, settings_forThreeBytes]
  rfl

/-- No file is opened for the log. -/
theorem disk_forThreeBytes :
    (start .forThreeBytes ⟨[]⟩ "/" .withThreeBytes).disk = World.withThreeBytes.disk := by
  change ((LogTarget.ofSettings "/" (Location.toPath []) productVersion
    (Arguments.forThreeBytes.settings ⟨[]⟩).1.log).prepare.runOn World.withThreeBytes.disk).2 = _
  rw [settings_forThreeBytes]
  rfl

/-- The planner prints the plan. -/
theorem plan_forThreeBytes {read : World}
    (hprograms : read.programs = (start .forThreeBytes ⟨[]⟩ "/" .withThreeBytes).programs)
    (hverbose : read.isVerbose = (start .forThreeBytes ⟨[]⟩ "/" .withThreeBytes).isVerbose) :
    (runOn ((task .forThreeBytes ⟨[]⟩).planner.plan "/cde.zsync"
      (task .forThreeBytes ⟨[]⟩).seed) read).1 = .ok .overlapping := by
  rw [task_forThreeBytes]
  have hprinted : Planner.planOf "zsyncranges"
      ⟨.status 0, Text.encode Plan.overlapping.toJson, []⟩ = .ok .overlapping := by
    decide +kernel
  refine Planner.runOn_plan ?_ ?_ hprinted ?_
  · decide +kernel
  · rw [hprograms]
    rfl
  · rw [hverbose]
    rfl

end Invocation

/-- **The program ends with status zero**, and its task has a sound outcome. -/
theorem success_is_sound_forThreeBytes :
    Arguments.read ["/cde.zsync", "/seed"] = .ok .forThreeBytes ∧
    (Invocation.run ["/cde.zsync", "/seed"] ⟨[]⟩ "/" .withThreeBytes).1.status = 0 ∧
    ∃ o, ∃ b : SyncTask.Briefing (Invocation.task .forThreeBytes ⟨[]⟩)
        (Invocation.start .forThreeBytes ⟨[]⟩ "/" .withThreeBytes),
      runOn (Invocation.task .forThreeBytes ⟨[]⟩).run
          (Invocation.start .forThreeBytes ⟨[]⟩ "/" .withThreeBytes) =
        (.ok o, (Invocation.run ["/cde.zsync", "/seed"] ⟨[]⟩ "/" .withThreeBytes).2) ∧
      b.IsSound o (Invocation.run ["/cde.zsync", "/seed"] ⟨[]⟩ "/" .withThreeBytes).2 := by
  have hread : Arguments.read ["/cde.zsync", "/seed"] = .ok .forThreeBytes := rfl
  have hdisk := Invocation.disk_forThreeBytes
  have htask := Invocation.task_forThreeBytes
  have hseed : World.withThreeBytes.disk.FileAt (Invocation.task .forThreeBytes ⟨[]⟩).seed ["seed"]
      [97, 98, 99] := by
    rw [htask]
    exact World.fileAt_seed _
  obtain ⟨b, htemp, hdigest, hsuits⟩ := SyncTask.exists_briefing_of_threeBytes hdisk rfl
    (congrArg SyncTask.location htask) (by rw [htask]; rfl) (by rw [htask]; decide) hseed
    (Descriptor.read_threeBytesText Digest.isDigest_ofThreeBytes) rfl
    (Descriptor.digest_threeBytes Digest.isDigest_ofThreeBytes) rfl
    fun _ hprograms hverbose => Invocation.plan_forThreeBytes hprograms hverbose
  obtain ⟨o, w', hrun, _⟩ := hsuits.exists_outcome_of_seed (b.destination_eq (by rw [htask]))
    (hdigest.trans Digest.sha1Hex_threeBytes.symm) htemp (hdisk ▸ hseed)
  have hstatus := Invocation.status_of_outcome hread hrun
  have hsound := success_is_sound (Invocation.task .forThreeBytes ⟨[]⟩) ["/cde.zsync", "/seed"] ⟨[]⟩
    "/" .withThreeBytes
  exact ⟨hread, hstatus, hsound.2 _ hread hstatus⟩

/-! ### A seed that is lost -/

/-- The digest of the empty file. -/
def Digest.ofEmpty : String :=
  "da39a3ee5e6b4b0d3255bfef95601890afd80709"

theorem Digest.sha1Hex_nil : sha1Hex [] = ofEmpty := by
  decide +kernel

theorem Digest.isDigest_ofEmpty : Descriptor.isDigest ofEmpty = true :=
  Descriptor.isDigest_ofList (by decide)

namespace Descriptor

/-- The text of a descriptor of an empty file. -/
def emptyFileText : List UInt8 :=
  Text.encode ("Length: 0\nSHA-1: da39a3ee5e6b4b0d3255bfef95601890afd80709\n" ++
    "URL: http://[::1]/cde\n\n")

/-- What it says. -/
def emptyFile : Descriptor where
  headers := [("Length", .integer 0), ("SHA-1", .text "da39a3ee5e6b4b0d3255bfef95601890afd80709"),
    ("URL", .text "http://[::1]/cde")]
  urls := ["http://[::1]/cde"]

theorem read_emptyFileText : Descriptor.read emptyFileText = .ok (emptyFile, []) := by
  change read (Text.encode (String.ofList _ ++ String.ofList _)) = _
  rw [← String.ofList_append]
  refine read_ofList [(_, _), (_, _), (_, _)] (rfl : empty.insertAll [("Length", "0"),
    ("SHA-1", "da39a3ee5e6b4b0d3255bfef95601890afd80709"), ("URL", "http://[::1]/cde")] = _) ?_ ?_ ?_
  all_goals decide

theorem digest_emptyFile : emptyFile.digest = .ok (Digest.sha1Hex []) := by
  rw [Digest.sha1Hex_nil]
  exact digest_of_text? rfl Digest.isDigest_ofEmpty

end Descriptor

/-- A world with a folder that a link leads to, and with the descriptor of an empty file. -/
def World.withEmptyFile : World where
  disk := .ofTree [] ⟨[(["d"], .folder), (["l"], .link "d"),
    (["cde.zsync"], .file Descriptor.emptyFileText defaultMode none)]⟩
  net := ⟨.unreachable, []⟩
  programs := ⟨fun _ _ => .error .notFound, []⟩
  progress := none
  log := []
  isVerbose := false

theorem World.isObliging_withEmptyFile : withEmptyFile.disk.IsObliging :=
  isObliging_ofTree _ _

/-- The task that replaces a seed whose path passes through the link at its end, under the strict
policy. -/
def SyncTask.crossing : SyncTask where
  location := "/cde.zsync"
  seed := "/l/../l"
  output := none
  settings := { Settings.default with
    reconstruction := { Settings.default.reconstruction with integrityPolicy := .strict } }
  planner := .fixed .empty

/-- **The empty file is delivered** in the place of the link, and the path of the seed is cut off. -/
theorem SyncTask.exists_outcome_crossing :
    ∃ (b : Briefing crossing .withEmptyFile) (o : Outcome) (w' : World),
      World.withEmptyFile.disk.Kept b.start.disk ∧
      Writer.CanSupplant World.withEmptyFile.disk crossing.seed ∧ b.Cuts ∧
      runOn crossing.run .withEmptyFile = (.ok o, w') ∧ b.Delivers o [] w' := by
  have hcrossed : World.withEmptyFile.disk.tree.IsCrossed := ⟨rfl, rfl⟩
  have hcan := Writer.canSupplant_crossing hcrossed
  have hlocation : crossing.location = "/cde.zsync" := rfl
  have hfile : World.withEmptyFile.disk.FileAt "/cde.zsync" ["cde.zsync"]
      Descriptor.emptyFileText := fileAt_of_name (by decide) (by decide) (by decide) rfl
  obtain ⟨b, htemp, hp, hlength, hdigest, hurl⟩ := exists_briefing_at hlocation
    Http.Client.named_productName Descriptor.read_location (by decide)
    Descriptor.absolute_location World.isObliging_withEmptyFile hfile
    Descriptor.read_emptyFileText rfl Descriptor.digest_emptyFile rfl Descriptor.resolve_location
    fun _ _ _ => rfl
  have hsuits : b.Suits [] [] [] := by
    refine ⟨World.isObliging_withEmptyFile, hp ▸ Plan.fits_empty, Nat.zero_le _, hlength,
      fun hreuse => absurd (congrArg Plan.reuse hp) hreuse, Nat.zero_le _, ?_, ?_, by decide⟩
    · rw [hurl]
      decide
    · intro _ _ r _ _ _ hlast
      exact absurd hlast (Nat.not_lt_zero _)
  have hdest := b.destination_eq rfl
  have hkept : World.withEmptyFile.disk.Kept b.start.disk := b.arrives.kept htemp
  obtain ⟨o, w', hrun, hdelivers⟩ :=
    hsuits.exists_outcome_replacing hdest hdigest htemp hcan nofun
  refine ⟨b, o, w', hkept, hcan, ⟨hdest, ?_⟩, hrun, hdelivers⟩
  rw [hkept.tree, hkept.cwd]
  exact hcrossed.retraces

/-- **Without the exception the statement fails**: the task has an outcome, and the path of the
outcome leads to no file. -/
theorem crossing_is_not_found :
    ∃ o w', runOn SyncTask.crossing.run .withEmptyFile = (.ok o, w') ∧
      ¬ o.IsFoundIn w'.disk := by
  obtain ⟨b, o, w', _, _, hcuts, hrun, hdelivers⟩ := SyncTask.exists_outcome_crossing
  refine ⟨o, w', hrun, ?_⟩
  rintro ⟨place, content, hfile, _⟩
  exact hdelivers.lost (fun hsound => hsound.2 ⟨rfl, hcuts⟩) place content hfile

end RangeSync
