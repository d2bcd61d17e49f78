import RangeSync.Proofs.Undated
import RangeSync.Proofs.Verdict

/-!
# Which outputs are dated

A descriptor may say when its file was modified. The output is given that date at the end of the
job, when it is in its place. Which outputs have been verified by then depends on the policy. Under
the strict policy the job has compared the digest, so an output with another one is never dated, and
neither is anything else (`RangeSync.SyncTask.ends_run_undated`). Under the advisory policy the
digest is compared after the job: **every output is dated, whatever its digest**
(`RangeSync.SyncTask.Briefing.isDated_of_job`).

An output that is delivered has the date of the descriptor, with the exceptions that there have to
be (`RangeSync.SyncTask.dates_what_is_delivered`): the system may refuse to date it, and then the
run does not fail; a path that was cut off leads to nothing that could be dated; and an output in
the place of the temporary copy of the descriptor is removed with it.
-/

namespace RangeSync

open Act Disk

/-! ### Dates -/

namespace Disk

variable {d d' : Disk} {path : String} {time : Time.Instant}

/-- **The file that a path leads to has this date.** -/
def IsDated (d : Disk) (path : String) (time : Time.Instant) : Prop :=
  modified? d.tree d.cwd path = some time

theorem isDated_iff : d.IsDated path time ↔ ∃ place content mode,
    d.tree.walk d.cwd true path = .ok (.taken place (.file content mode (some time))) := by
  unfold IsDated modified?
  constructor
  · intro h
    split at h
    · rename_i place content mode modified hw
      exact ⟨place, content, mode, h ▸ hw⟩
    · cases h
  · rintro ⟨place, content, mode, hw⟩
    rw [hw]

theorem IsDated.kept (h : d.IsDated path time) (hk : d.Kept d') : d'.IsDated path time := by
  rwa [IsDated, hk.tree, hk.cwd]

/-- **A file is dated**, unless the system refuses it, or the path leads to no file. -/
theorem ends_setModified_dates (d : Disk) (path : String) (time : Time.Instant) :
    (setModified path time).Ends d (fun _ d' => d'.IsDated path time)
      fun kind d' => d.Kept d' ∧
        (d.Refuses kind ∨ ∀ place content, ¬ d.FileAt path place content) := by
  unfold setModified
  rw [ends_bind]
  refine (ends_attempt d).mono ?_ fun kind d' ⟨hk, hr⟩ => ⟨hk, Or.inl hr⟩
  intro _ d₁ hk
  rw [ends_bind, ends_node, hk.tree, hk.cwd]
  have hnone (hw : ∀ place content mode time,
      d.tree.walk d.cwd true path ≠ .ok (.taken place (.file content mode time))) :
      ∀ place content, ¬ d.FileAt path place content := by
    rintro place content ⟨mode, time, hfile⟩
    exact hw place content mode time hfile
  rcases hw : d.tree.walk d.cwd true path with kind | ⟨place, (⟨content, mode, old⟩ | _ | _)⟩ | _
  · exact ⟨hk, Or.inr (hnone fun _ _ _ _ hc => nomatch hw.symm.trans hc)⟩
  · refine ends_change fun d₂ ht => isDated_iff.mpr ⟨place, content, mode, ?_⟩
    rw [ht.tree, ht.cwd, hk.tree, hk.cwd]
    exact Tree.walk_refilled hw trivial (Tree.sameOff_put _ _ _)
      (Tree.get?_put_self _ _ ((Tree.leads_of_walk hw).place_ne_nil trivial))
  · exact ⟨hk, Or.inr (hnone fun _ _ _ _ hc => nomatch hw.symm.trans hc)⟩
  · exact ⟨hk, Or.inr (hnone fun _ _ _ _ hc => nomatch hw.symm.trans hc)⟩
  · exact ⟨hk, Or.inr (hnone fun _ _ _ _ hc => nomatch hw.symm.trans hc)⟩

end Disk

/-! ### Jobs that date their output -/

namespace Job

variable {job : Job} {b : Bench} {w : World} {time : Time.Instant}

/-- The output has its date, or there is a reason. -/
def Dates (refuser d : Disk) (path : String) (time : Time.Instant) : Prop :=
  d.IsDated path time ∨ (∃ kind, refuser.Refuses kind) ∨
    ∀ place content, ¬ d.FileAt path place content

theorem ends_settle_dates (hmtime : job.mtime = some time)
    (hpreserve : job.settings.preserveMtime = true) (b : Bench) :
    job.settle.Ends b (fun path b' => Dates b.2.disk b'.2.disk path time) fun _ _ => True := by
  unfold settle
  rw [hmtime, hpreserve, ends_bind]
  refine (Bench.admits_addsNoDate.commits.ends b).mono ?_ fun _ _ _ => trivial
  intro path b₁ h₁
  have hrefuses : b₁.2.disk.refuses = b.2.disk.refuses := Along.refuses h₁
  dsimp only
  rw [ends_bind, Bench.ends_onWorld]
  refine ends_attempt (fun d => Dates b.2.disk d path time) ?_ fun w' hw' _ => hw'
  refine (ends_setModified_dates b₁.2.disk path time).mono (fun _ _ hd => Or.inl hd) ?_
  rintro kind d ⟨hk, hr | hno⟩
  · exact Or.inr (Or.inl ⟨kind, refuses_congr hrefuses hr⟩)
  · refine Or.inr (Or.inr fun place content hfile => hno place content ?_)
    rwa [FileAt, hk.tree, hk.cwd] at hfile

/-- **A job that succeeds has dated its output**, or there is a reason. -/
theorem ends_run_dates (hmtime : job.mtime = some time)
    (hpreserve : job.settings.preserveMtime = true) (w : World) :
    job.run.Ends w (fun summary w' => Dates w.disk w'.disk summary.path time)
      fun _ _ => True := by
  have hfinish (b : Bench) :
      job.finish.Ends b (fun path b' => Dates b.2.disk b'.2.disk path time) fun _ _ => True := by
    have hadmits := Bench.admits_addsNoDate
    refine ends_finish b.AddsNoDate (fun _ => hadmits.refl b) (fun expected _ => ?_) fun b₁ h₁ => ?_
    · exact ((hadmits.compare job expected).ends b).mono (fun _ _ h => h) fun _ _ _ => trivial
    · refine (ends_settle_dates hmtime hpreserve b₁).mono ?_ fun _ _ _ => trivial
      exact fun path b₂ h₂ => h₂.imp_right (Or.imp_left fun ⟨kind, hr⟩ =>
        ⟨kind, refuses_congr (Along.refuses h₁) hr⟩)
  rw [run_eq, ends_bind]
  refine (job.goesAlong_fill.ends w).mono ?_ fun _ _ _ => trivial
  intro filled w₁ h₁
  refine (ends_close (hfinish (filled.2.2, w₁))).mono ?_ fun _ _ _ => trivial
  rintro summary w₂ ⟨_, _, _, _, writer, h₂⟩
  exact h₂.imp_right (Or.imp_left fun ⟨kind, hr⟩ => ⟨kind, refuses_congr (Along.refuses h₁) hr⟩)

end Job

/-! ### Tasks -/

namespace SyncTask.Briefing

variable {task : SyncTask} {w w' w₁ : World} {b : Briefing task w} {bytes : List UInt8}
  {time : Time.Instant}

/-- **The descriptor says when the file was modified**, in a way that can be read. -/
def Says (b : Briefing task w) (time : Time.Instant) : Prop :=
  ∃ place e d rest,
    b.found.disk.tree.walk b.found.disk.cwd true b.fetched.path = .ok (.taken place e) ∧
      Descriptor.read (b.found.disk.bytesAt place) = .ok (d, rest) ∧ d.mtime = .ok (some time)

theorem Says.mtime_eq (h : b.Says time) : b.job.mtime = some time := by
  obtain ⟨place, e, d, rest, hw, hread, hmtime⟩ := h
  obtain ⟨_, place', e', d', rest', log, hw', hread', horder⟩ :=
    (ends_order b.fetched b.found).of_ok b.reads
  obtain ⟨rfl, rfl⟩ := Spot.taken.inj (Except.ok.inj (hw.symm.trans hw'))
  obtain ⟨rfl, rfl⟩ := Prod.mk.inj (Except.ok.inj (hread.symm.trans hread'))
  obtain ⟨_, _, _, hsame⟩ := Order.of_ofDescriptor horder
  rw [hmtime] at hsame
  exact hsame

/-- The output keeps its date when the descriptor is given back. -/
theorem Placed.isDated_released (h : b.Placed bytes w₁) (hapart : b.IsApart)
    (hdated : w₁.disk.IsDated b.job.path time) (hr : b.fetched.Released w₁ w') :
    w'.disk.IsDated b.job.path time := by
  obtain ⟨place, content, mode, hw⟩ := isDated_iff.mp hdated
  have hcuts : ¬ b.Cuts := fun hc => h.lost hc _ _ hw
  obtain ⟨place', hfile⟩ := h.found hcuts
  obtain ⟨mode', time', hw'⟩ := h.fileAt_released hapart hfile hr
  rcases htemp : b.fetched.temporary with _ | temporary
  · rw [hr.kept htemp]
    exact hdated
  · -- before it was given back there was one entry more, so the path led to the same node
    have ht := hr.dropped temporary htemp
    obtain ⟨_, _, _, hcopy⟩ := b.temporary_file htemp
    have hbefore := hw'
    rw [ht.cwd, ht.tree] at hbefore
    have hnode := (Tree.walk_keeps (Tree.keeps_erase (Tree.ne_nil_of_file hcopy)) hbefore).symm.trans hw
    obtain ⟨rfl, hnode⟩ := Spot.taken.inj (Except.ok.inj hnode)
    rw [hnode] at hw'
    exact isDated_iff.mpr ⟨_, _, _, hw'⟩

/-- Why an output that was to be dated may have no date. -/
def IsExcused (b : Briefing task w) : Prop :=
  (∃ kind, w.disk.Refuses kind) ∨ ¬ b.IsApart

/-- A job that answers has put its output into its place. -/
theorem placed_of_job {summary : Summary}
    (hjob : runOn b.job.run b.start = (.ok summary, w₁)) :
    summary.path = b.job.path ∧ ∃ bytes, b.Placed bytes w₁ := by
  rcases hdest : b.job.destination with path | _
  · obtain ⟨bytes, s, ha, hw, hs, hfile, halong⟩ :=
      (b.job.ends_run_of_file b.start hdest).of_ok hjob
    exact ⟨ha.path, bytes, placed_of_site hdest hw hs hfile halong⟩
  · obtain ⟨bytes, ha, _, hcommit⟩ := (b.job.ends_run_of_staged b.start hdest).of_ok hjob
    exact ⟨ha.path, bytes, placed_of_commits hdest hcommit⟩

/-- When the job has answered, no file is changed any more until the descriptor is given back; and
an outcome under the advisory policy means that the path was not cut off. -/
theorem ends_conclude_of_job {summary : Summary}
    (hjob : runOn b.job.run b.start = (.ok summary, w₁)) :
    b.conclude.Ends b.start
      (fun o w₂ => w₁.disk.Kept w₂.disk ∧ o = b.outcome summary ∧ (b.Cuts → b.Breaks))
      fun _ w₂ => w₁.disk.Kept w₂.disk := by
  obtain ⟨hpath, bytes, hplaced⟩ := placed_of_job hjob
  have hverified := (b.job.ends_run_undated b.start).of_ok hjob
  refine b.ends_conclude ((ends_of_ok hjob).mpr ?_)
  split
  · rename_i hyes
    rw [hverified, b.expected_eq] at hyes
    split at hyes
    · rename_i hstrict
      exact ⟨Kept.refl _, rfl, fun hcuts => ⟨hstrict, hcuts⟩⟩
    · cases hyes
  · -- the digest is read by way of the path, so the path leads to something
    refine (ends_confirm summary.path b.order.digest w₁).mono ?_ fun _ _ h => h.1
    rintro _ w₂ ⟨hk, place, e, hw, _⟩
    rw [hpath] at hw
    exact ⟨hk, rfl, fun hcuts => absurd hw (hplaced.lost hcuts place e)⟩

/-- **When its job has answered, the output is dated**, whatever becomes of the task: the digest may
still have to be compared. -/
theorem isDated_of_job {summary : Summary}
    (hpreserve : task.settings.reconstruction.preserveMtime = true) (hwhen : b.Says time)
    (hjob : runOn b.job.run b.start = (.ok summary, w₁)) :
    (runOn task.run w).2.disk.IsDated summary.path time ∨ b.IsExcused ∨ b.Cuts := by
  obtain ⟨hpath, bytes, hplaced⟩ := placed_of_job hjob
  have hk : w₁.disk.Kept (runOn b.conclude b.start).2.disk :=
    ((ends_conclude_of_job hjob).mono (fun _ _ h => h.1) fun _ _ h => h).state
      (P := fun w₂ : World => w₁.disk.Kept w₂.disk)
  by_cases hapart : b.IsApart
  case neg => exact Or.inr (Or.inl (Or.inr hapart))
  by_cases hcuts : b.Cuts
  case pos => exact Or.inr (Or.inr hcuts)
  rcases (Job.ends_run_dates hwhen.mtime_eq hpreserve b.start).of_ok hjob with hd | hr | hno
  · rw [hpath, b.runOn_run] at *
    exact Or.inl ((hplaced.kept hk).isDated_released hapart (hd.kept hk)
      (b.fetched.released_released _))
  · obtain ⟨kind, hr⟩ := hr
    exact Or.inr (Or.inl (Or.inl ⟨kind, refuses_congr b.arrives.along.refuses hr⟩))
  · obtain ⟨place, hfile⟩ := hplaced.found hcuts
    rw [hpath] at hno
    exact absurd hfile (hno place bytes)

/-- **An outcome comes with a dated output.** -/
theorem isDated_of_outcome {o : Outcome}
    (hpreserve : task.settings.reconstruction.preserveMtime = true) (hwhen : b.Says time)
    (hrun : runOn task.run w = (.ok o, w')) :
    w'.disk.IsDated o.summary.path time ∨ b.IsExcused ∨ b.Breaks := by
  have hall := hrun
  rw [b.runOn_run] at hrun
  obtain ⟨hanswer, -⟩ := Prod.mk.inj hrun
  rcases hjob : runOn b.job.run b.start with ⟨cause | summary, w₁⟩
  · rw [runOn_conclude_of_error hjob] at hanswer
    cases hanswer
  · obtain ⟨_, rfl, hbreaks⟩ := (ends_conclude_of_job hjob).of_ok (Prod.ext hanswer rfl)
    have hdated := isDated_of_job hpreserve hwhen hjob
    rw [hall] at hdated
    exact hdated.imp_right (Or.imp_right hbreaks)

end SyncTask.Briefing

/-! ### What is dated and what is not -/

namespace SyncTask

open Briefing

/-- **What is delivered is dated, and what fails its verification before it is in its place is
not.** If no dates are wanted, or if the policy is strict and the task fails, for whatever reason,
then no file has got a date on the way. If dates are wanted and the descriptor has one, an outcome
comes with an output that has it, unless there is an excuse. Under the advisory policy the output
has it as soon as the job has answered, before its digest is compared. -/
theorem dates_what_is_delivered (task : SyncTask) (w : World) :
    (task.settings.reconstruction.preserveMtime = false → w.AddsNoDate (runOn task.run w).2) ∧
    (task.settings.reconstruction.integrityPolicy = .strict → ∀ cause w',
      runOn task.run w = (.error cause, w') → w.AddsNoDate w') ∧
    ∀ (b : Briefing task w) (time : Time.Instant),
      task.settings.reconstruction.preserveMtime = true → b.Says time →
      (∀ o w', runOn task.run w = (.ok o, w') →
        w'.disk.IsDated o.summary.path time ∨ b.IsExcused ∨ b.Breaks) ∧
      ∀ summary w₁, runOn b.job.run b.start = (.ok summary, w₁) →
        (runOn task.run w).2.disk.IsDated summary.path time ∨ b.IsExcused ∨ b.Cuts := by
  refine ⟨fun hno => goesAlong_run hno w, fun hstrict cause w' hrun => ?_, ?_⟩
  · exact (task.ends_run_undated w hstrict).of_error hrun
  · intro b time hpreserve hwhen
    exact ⟨fun o w' hrun => isDated_of_outcome hpreserve hwhen hrun,
      fun summary w₁ hjob => isDated_of_job hpreserve hwhen hjob⟩

end SyncTask

/-! ### A descriptor with a date -/

namespace Digest

/-- The digest of another file. -/
def ofAnother : String :=
  "87acec17cd9dcd20a716cc2cf67417b71c8a7016"

/-- The digest of the file of three bytes, written in capital letters. -/
def ofThreeBytesInCapitals : String :=
  "5AF13954A67EAB2973B4ADE01186602DD8739787"

theorem isDigest_ofAnother : Descriptor.isDigest ofAnother = true :=
  Descriptor.isDigest_ofList (by decide)

theorem isDigest_ofThreeBytesInCapitals : Descriptor.isDigest ofThreeBytesInCapitals = true :=
  Descriptor.isDigest_ofList (by decide)

theorem sha1Hex_threeBytes_ne : sha1Hex [99, 100, 101] ≠ ofAnother := by
  rw [sha1Hex_threeBytes]
  decide

end Digest

namespace Descriptor

/-- The text of a descriptor of three bytes that were modified a hundred seconds into 1970. -/
def datedText (digest : String) : List UInt8 :=
  Text.encode ("MTime: Thu, 01 Jan 1970 00:01:40 +0000\nLength: 3\nSHA-1: " ++ digest ++
    "\nURL: http://[::1]/cde\n\n")

/-- What it says. -/
def dated (digest : String) : Descriptor where
  headers := [("Length", .integer 3), ("MTime", .text "Thu, 01 Jan 1970 00:01:40 +0000"),
    ("SHA-1", .text digest), ("URL", .text "http://[::1]/cde")]
  urls := ["http://[::1]/cde"]

theorem mtime_dated (digest : String) : (dated digest).mtime = .ok (some ⟨100, 0⟩) := by
  have hsome : (dated digest).text? "MTime" = some "Thu, 01 Jan 1970 00:01:40 +0000" := rfl
  have hinstant : Time.MailDate.instant? "Thu, 01 Jan 1970 00:01:40 +0000" = some ⟨100, 0⟩ := by
    decide +kernel
  rw [mtime, hsome]
  dsimp only
  rw [hinstant]

/-- **The text is read**, whatever the digest. -/
theorem read_datedText {digest : String} (h : isDigest digest = true) :
    read (datedText digest) = .ok (dated digest, []) := by
  obtain ⟨chars, rfl⟩ : ∃ chars, digest = String.ofList chars :=
    ⟨digest.toList, String.ofList_toList.symm⟩
  change read (Text.encode (String.ofList _ ++ String.ofList chars ++ String.ofList _)) = _
  rw [← String.ofList_append, ← String.ofList_append]
  refine read_ofList [(_, _), (_, _), (_, chars), (_, _)] (rfl : empty.insertAll
    [("MTime", "Thu, 01 Jan 1970 00:01:40 +0000"), ("Length", "3"), ("SHA-1", String.ofList chars),
      ("URL", "http://[::1]/cde")] = _) ?_ ?_ ?_
  · simp only [List.forall_mem_cons]
    exact ⟨by decide, by decide, isPlain_of_isDigest h, by decide, List.forall_mem_nil _⟩
  · exact (nofun : none ≠ some legacyVersion)
  · simp only [HeaderLine.separator, List.flatMap_cons, List.flatMap_nil, List.append_assoc,
      List.cons_append, List.nil_append]

theorem digest_dated {digest : String} (h : isDigest digest = true) :
    (dated digest).digest = .ok digest :=
  digest_of_text? rfl h

end Descriptor

/-- A world with such a descriptor. -/
def World.withDated (digest : String) : World :=
  withDescriptor (Descriptor.datedText digest)

namespace SyncTask

open Briefing

/-- **The task that replaces the seed** knows what it needs, and the date. -/
theorem exists_briefing_dated {digest : String} (hisDigest : Descriptor.isDigest digest = true) :
    ∃ b : Briefing renewing (.withDated digest), b.fetched.temporary = none ∧
      b.order.digest = digest ∧ b.Suits ["seed"] [97, 98, 99] [99, 100, 101] ∧
      b.Says ⟨100, 0⟩ := by
  have hread := Descriptor.read_datedText hisDigest
  have hfile := World.fileAt_descriptor (Descriptor.datedText digest)
  have hroom : renewing.settings.reconstruction.downloadChunkSize.count.toNat <
      Origin.roomLimit := by decide
  have habsolute : Path.absolute (World.withDated digest).disk.cwd.toPath "/cde.zsync" =
      "/cde.zsync" := Descriptor.absolute_location
  obtain ⟨b, htemp, hdigest, hsuits⟩ := exists_briefing_of_threeBytes rfl rfl rfl rfl hroom
    (World.fileAt_seed (Descriptor.datedText digest)) hread rfl
    (Descriptor.digest_dated hisDigest) rfl fun _ _ _ => rfl
  refine ⟨b, htemp, hdigest, hsuits, ?_⟩
  have hlocal := b.finds.symm.trans (runOn_ofLocation Descriptor.read_location (by decide)
    (habsolute.symm ▸ hfile))
  obtain ⟨hfetched, hfound⟩ := Prod.mk.inj hlocal
  have hat : b.fetched.path = "/cde.zsync" :=
    (congrArg Fetched.path (Except.ok.inj hfetched)).trans habsolute
  have hbytes := hfile.bytesAt
  obtain ⟨mode, time, hw⟩ := hfile
  rw [← hbytes, ← hfound] at hread
  rw [← hfound, ← hat] at hw
  exact ⟨["cde.zsync"], _, _, [], hw, hread, Descriptor.mtime_dated digest⟩

/-- **The task fills its output** with the three bytes, under every policy. -/
theorem exists_filled_dated {digest : String} (hisDigest : Descriptor.isDigest digest = true)
    (policy : IntegrityPolicy) :
    ∃ (b : Briefing (renewing.under policy) (.withDated digest))
        (filled : UInt64 × UInt64 × Writer) (w₁ : World),
      runOn b.job.fill b.start = (.ok filled, w₁) ∧
      Bench.bytes (filled.2.2, w₁) = [99, 100, 101] ∧ b.order.digest = digest ∧
      b.fetched.temporary = none ∧ b.Says ⟨100, 0⟩ ∧ b.CanPublish ∧ ¬ b.Cuts := by
  obtain ⟨b, htemp, hdigest, hsuits, hwhen⟩ := exists_briefing_dated hisDigest
  have hseed := World.fileAt_seed (Descriptor.datedText digest)
  obtain ⟨filled, w₁, hfill, hbytes⟩ :=
    (hsuits.under policy).exists_filled_replacing ((b.under policy).destination_eq rfl)
  exact ⟨b.under policy, filled, w₁, hfill, hbytes, hdigest, htemp, hwhen,
    canPublish_of_seed hsuits.obliging hseed, not_cuts_of_fileAt hseed⟩

/-- A run under the strict policy whose output has another digest dates nothing, and a run under the
advisory policy that delivers dates its output. -/
theorem dates_what_is_delivered_renewing :
    (∃ cause w', runOn renewing.run (.withDated Digest.ofAnother) = (.error cause, w') ∧
      (World.withDated Digest.ofAnother).AddsNoDate w') ∧
    ∃ (b : Briefing (renewing.under .advisory) (.withDated Digest.ofThreeBytes)) (o : Outcome)
        (w' : World), b.Says ⟨100, 0⟩ ∧
      runOn (renewing.under .advisory).run (.withDated Digest.ofThreeBytes) = (.ok o, w') ∧
      w'.disk.IsDated o.summary.path ⟨100, 0⟩ := by
  constructor
  · obtain ⟨b, _, hdigest, hsuits, _⟩ := exists_briefing_dated Digest.isDigest_ofAnother
    rcases hrun : runOn renewing.run (.withDated Digest.ofAnother) with ⟨cause | o, w'⟩
    · exact ⟨cause, w', rfl, (dates_what_is_delivered renewing _).2.1 rfl cause w' hrun⟩
    · -- what is delivered are the three bytes, and they have another digest
      obtain ⟨b', bytes, h⟩ := (renewing.ends_run_delivers _).of_ok hrun
      rw [b'.unique b] at h
      obtain rfl := hsuits.bytes_eq (b.destination_eq rfl) h
      exact absurd (h.sha1.trans (h.digest.trans hdigest)) Digest.sha1Hex_threeBytes_ne
  · obtain ⟨b, htemp, hdigest, hsuits, hwhen⟩ :=
      exists_briefing_dated Digest.isDigest_ofThreeBytes
    obtain ⟨o, w', hrun, _⟩ := (hsuits.under .advisory).exists_outcome_of_seed
      ((b.under .advisory).destination_eq rfl) (hdigest.trans Digest.sha1Hex_threeBytes.symm) htemp
      (World.fileAt_seed _)
    refine ⟨b.under .advisory, o, w', hwhen, hrun, ?_⟩
    have hall := (dates_what_is_delivered (renewing.under .advisory) _).2.2 (b.under .advisory)
      ⟨100, 0⟩ rfl hwhen
    rcases hall.1 o w' hrun with hdated | (⟨kind, hr⟩ | hapart) | hbreaks
    · exact hdated
    · exact absurd hr (World.isObliging_withDescriptor _ kind)
    · exact absurd (fun temporary e hsome => nomatch htemp.symm.trans hsome) hapart
    · cases hbreaks.1

/-- **Under the advisory policy the statement about other digests fails**: the run ends because of
the digest, and the output, which had no date, has the date of the descriptor. -/
theorem mismatch_is_dated :
    ∃ (b : Briefing (renewing.under .advisory) (.withDated Digest.ofAnother))
        (expected actual : String) (w' : World), b.Says ⟨100, 0⟩ ∧
      runOn (renewing.under .advisory).run (.withDated Digest.ofAnother) =
        (.error (.failed (.rebuild (.digest expected actual))), w') ∧
      ¬ (World.withDated Digest.ofAnother).disk.IsDated "/seed" ⟨100, 0⟩ ∧
      w'.disk.IsDated "/seed" ⟨100, 0⟩ := by
  obtain ⟨b, filled, w₁, hfill, hbytes, hdigest, htemp, hwhen, hpublish, hcuts⟩ :=
    exists_filled_dated Digest.isDigest_ofAnother .advisory
  have hne : Digest.sha1Hex (Bench.bytes (filled.2.2, w₁)) ≠ b.order.digest := by
    rw [hbytes, hdigest]
    exact Digest.sha1Hex_threeBytes_ne
  obtain ⟨wa, hrun, _⟩ := exists_refused hpublish hcuts hfill hne
  obtain ⟨settled, hsettle, _⟩ := exists_settled hpublish hfill
  refine ⟨b, _, _, _, hwhen, hrun, ?_, ?_⟩
  · -- the seed had no date
    intro hdated
    obtain ⟨place, content, mode, hw⟩ := isDated_iff.mp hdated
    cases (World.walk_seed (Descriptor.datedText Digest.ofAnother) true).symm.trans hw
  · have hjob := runOn_job_advisory hfill hsettle
    have hdated := isDated_of_job (b := b) rfl hwhen hjob
    change runOn (renewing.under .advisory).run _ = _ at hrun
    rw [hrun] at hdated
    rcases hdated with hdated | (⟨kind, hr⟩ | hapart) | hc
    · rwa [show (b.summary filled false).path = "/seed" from
        Job.path_of_replaceSeed (b.destination_eq rfl)] at hdated
    · exact absurd hr (World.isObliging_withDescriptor _ kind)
    · exact absurd (fun temporary e hsome => nomatch htemp.symm.trans hsome) hapart
    · exact absurd hc hcuts

end SyncTask
end RangeSync
