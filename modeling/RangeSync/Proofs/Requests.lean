import RangeSync.Proofs.Overflow
import RangeSync.Proofs.Steps

/-!
# The requests of a run

What a run asks a server for cannot be read off its output. A range that is asked for too early or
twice, or after another range has failed, leaves no trace in the bytes. So the statement here is one
about the history of the server, over a whole run and against any server: **a run asks for a prefix
of the ranges of its plan**, in the order of the plan and with one request each, and how long the
prefix is is told by how the run ends (`RangeSync.Job.asks_in_plan_order`).

* Nothing is asked for unless the plan passes its check, somebody can send requests, the output can
  be opened, all that the seed has can be copied and something is missing
  (`RangeSync.Job.Begins`).
* Then ranges are asked for until one is not served. That one is the last of the prefix, and it is
  the one that the failure names (`RangeSync.Job.Reaches`).

What is served is up to the server alone, `RangeSync.Job.Delivers`. A request may be redirected; the
requests that follow from it belong to its range (`RangeSync.Http.Client.Sends`).
-/

namespace RangeSync

open Act Disk Http

variable {α : Type}

/-! ### Work beside the net -/

namespace World

variable {ρ : Type} {part : World → ρ}

/-- **A part of the world beside the files**: it does not depend on the disk or on the log. -/
def IsBeside (part : World → ρ) : Prop :=
  ∀ (w : World) (disk : Disk) (log : List Entry), part { w with disk, log } = part w

theorem isBeside_net : IsBeside (·.net) :=
  fun _ _ _ => rfl

theorem isBeside_progress : IsBeside (·.progress) :=
  fun _ _ _ => rfl

namespace IsBeside

theorem leaves_onDisk (h : IsBeside part) (act : FileAct α) : (onDisk act).Leaves part :=
  fun w => h w _ w.log

theorem leaves_note (h : IsBeside part) (entry : Entry) :
    (note entry : Work Unit).Leaves part :=
  leaves_modify fun w => h w w.disk _

/-- What is only tried is work on files, with an entry in the log. -/
theorem leaves_attempt (h : IsBeside part) (message : String) (describe : IoKind → String)
    (act : FileAct Unit) : (Job.attempt message describe act).Leaves part := by
  refine leaves_of_ends fun w => ?_
  unfold Job.attempt
  rw [ends_bind, ends_get]
  dsimp only
  rcases runOn act w.disk with ⟨_, d⟩
  exact h w d _

theorem leaves_onWriter (h : IsBeside part) (act : WriterAct α) :
    (Bench.onWriter act).Leaves fun b => part b.2 :=
  fun b => h b.2 _ b.2.log

theorem leaves_onWorld {act : Work α} (h : act.Leaves part) :
    (Bench.onWorld act).Leaves fun b => part b.2 :=
  leaves_within h fun _ _ h => h

theorem leaves_withWriter (writer : Writer) {act : BenchAct α}
    (h : act.Leaves fun b => part b.2) : (Job.withWriter writer act).Leaves part := by
  refine leaves_of_ends fun w => ?_
  exact (Job.ends_withWriter (h.ends (writer, w))).mono
    (fun ⟨result, _⟩ _ hw => by cases result <;> exact hw) fun _ _ hno => hno.elim

/-- **What does not depend on files is left alone by every step.** -/
theorem admits (h : IsBeside part) : Bench.Admits fun b b' => part b'.2 = part b.2 where
  toChains := chains_part fun b : Bench => part b.2
  opens _ := leaves_onWorld (h.leaves_onDisk _)
  reads _ _ _ := leaves_onWorld (h.leaves_onDisk _)
  seeks _ := h.leaves_onWriter _
  writes _ := h.leaves_onWriter _
  digests := h.leaves_onWriter _
  commits := h.leaves_onWriter _
  discards _ _ _ := leaves_onWorld (h.leaves_attempt _ _ _)
  notes _ := leaves_onWorld (h.leaves_note _)

/-- **Copying from the seed** is work on files. -/
theorem leaves_copyReuse (h : IsBeside part) (job : Job) :
    job.copyReuse.Leaves fun b => part b.2 :=
  h.admits.copyReuse job

theorem leaves_settle (h : IsBeside part) (job : Job) : job.settle.Leaves fun b => part b.2 :=
  h.admits.settle job fun _ _ _ _ => leaves_onWorld (h.leaves_attempt _ _ _)

/-- **Finishing an output** is work on files. -/
theorem leaves_finish (h : IsBeside part) (job : Job) : job.finish.Leaves fun b => part b.2 :=
  h.admits.finish job fun _ _ _ _ => leaves_onWorld (h.leaves_attempt _ _ _)

theorem leaves_close (h : IsBeside part) (job : Job) (filled : UInt64 × UInt64 × Writer) :
    (job.close filled).Leaves part := by
  refine leaves_bind (leaves_withWriter _ (h.leaves_finish job)) fun ⟨result, _⟩ => ?_
  cases result with
  | error cause => exact leaves_throw _
  | ok path => exact leaves_pure _

end IsBeside

end World

/-- **The requests for a range**: each of them names it by its first and its last offset, and the
first one is for the URL itself. -/
structure Http.Client.IsTrail (c : Client) (url : Url) (r : DownloadRange)
    (requests : List Request) : Prop where
  range : ∀ request ∈ requests, request.range =
    some ("bytes=" ++ toString r.first.toNat ++ "-" ++ toString r.last.toNat)
  sender : ∀ request ∈ requests, request.userAgent = c.userAgent
  start : ∀ request ∈ requests.head?,
    request.url = { url with username := "", password := none, fragment := none }
  length : requests.length ≤ redirectLimit + 1

namespace Origin

/-- The server has been sent the requests for a range. -/
def HasSent (o : Origin) (r : DownloadRange) (net net' : Net) : Prop :=
  ∃ requests, o.client.Sends (some (rangeText r.first.toNat r.last.toNat)) o.url.withoutUser net
    requests net' ∧ o.client.IsTrail o.url r requests

/-- **A fetch sends the requests for its range** and no others, however it ends. -/
theorem ends_fetch_sends (o : Origin) (r : DownloadRange) (target : UInt64) (b : Bench) :
    (o.fetch r target).Ends b (fun _ b' => o.HasSent r b.2.net b'.2.net)
      fun _ b' => o.HasSent r b.2.net b'.2.net := by
  have hrequests {net : Net} : (∃ requests, o.client.Sends (some r.header) o.url.withoutUser
      b.2.net requests net ∧ requests.length ≤ redirectLimit + 1) → o.HasSent r b.2.net net := by
    rintro ⟨requests, hsends, hlength⟩
    rw [header_eq] at hsends
    exact ⟨requests, hsends, fun request h => (hsends.signs request h).1,
      fun request h => (hsends.signs request h).2, hsends.starts, hlength⟩
  have hfollow : (o.client.fetch o.url (some r.header)).Ends b.2.net
      (fun _ net => o.HasSent r b.2.net net) fun _ net => o.HasSent r b.2.net net :=
    (ends_follow_sends o.client (some r.header) redirectLimit o.url.withoutUser b.2.net).mono
      (fun _ _ h => hrequests h) fun _ _ h => hrequests h
  refine ends_fetch_cases (fun _ _ _ hrun => hfollow.of_error hrun)
    (fun _ _ _ hrun _ => hfollow.of_ok hrun) fun answer net log _ hrun _ => ?_
  -- the answer is written to the output, and the server hears nothing of it
  have hcount (n : Nat) : (World.count n).Leaves (·.net) := World.leaves_count (fun _ _ _ => rfl) n
  have hrest := World.isBeside_net.admits.take
    (fun n => World.IsBeside.leaves_onWorld (hcount n)) o r target answer
  have h := hfollow.of_ok hrun
  exact (hrest.ends (b.1, { b.2 with net, log })).mono (fun _ b' hb' => hb' ▸ h)
    fun _ b' hb' => hb' ▸ h

end Origin

namespace Job

/-- A cause that is found when an output is finished. -/
def IsLate (cause : Stop RebuildFault) : Prop :=
  (∃ kind, cause = .failed (.files kind)) ∨
    ∃ expected actual, cause = .failed (.digest expected actual)

/-- **The run fails because of the digest** of an output with these bytes, which is another one than
the expected one. -/
def Blames (job : Job) (bytes : List UInt8) (cause : Stop RebuildFault) : Prop :=
  ∃ expected, job.expected = some expected ∧ Digest.sha1Hex bytes ≠ expected ∧
    cause = .failed (.digest expected (Digest.sha1Hex bytes))

/-- An operation on the output fails because of the system. -/
theorem ends_onWriter_files (act : WriterAct α) (b : Bench) :
    (Bench.onWriter act).Ends b (fun _ _ => True)
      fun cause _ => ∃ kind, cause = .failed (.files kind) := by
  rw [Bench.ends_onWriter]
  exact (ends_self act _).mono (fun _ _ _ => trivial) fun kind _ _ => ⟨kind, rfl⟩

/-- **An output cannot be finished** because of the system, or because of its digest. -/
theorem ends_finish_blames (job : Job) (b : Bench) :
    job.finish.Ends b (fun _ _ => True)
      fun cause _ => (∃ kind, cause = .failed (.files kind)) ∨ job.Blames b.bytes cause := by
  refine ends_finish (fun _ => True) (fun _ => trivial) (fun expected he => ?_) fun b₁ _ => ?_
  · refine (ends_compare (fun _ => True) ?_ fun b₁ _ hne => ?_).mono (fun _ _ _ => trivial)
      fun _ _ h => h
    · exact (Bench.ends_digest b).mono (fun _ _ ⟨hhex, _⟩ => ⟨hhex, trivial⟩)
        fun _ _ ⟨_, kind, hcause, _⟩ => Or.inl ⟨kind, hcause⟩
    · -- whatever the policy says is done, the run fails because of the digest
      have hdigest : job.Blames b.bytes (.failed (.digest expected (Digest.sha1Hex b.bytes))) :=
        ⟨expected, he, hne, rfl⟩
      exact ends_reject (fun _ _ _ _ => Or.inr hdigest) fun _ =>
        (ends_onWriter_files _ b₁).mono (fun _ _ _ _ => Or.inr hdigest) fun _ _ h => Or.inl h
  · exact ends_settle (fun _ _ => True)
      ((ends_onWriter_files _ b₁).mono (fun _ _ _ => trivial) fun _ _ h => Or.inl h)
      fun _ d _ h => ends_always _ d h

/-- **No download is a reason for the failure** of finishing an output. -/
theorem ends_finish_late (job : Job) (b : Bench) :
    job.finish.Ends b (fun _ _ => True) fun cause _ => IsLate cause :=
  (job.ends_finish_blames b).mono (fun _ _ h => h) fun _ _ h =>
    h.imp_right fun ⟨expected, _, _, hcause⟩ => ⟨expected, _, hcause⟩

end Job

/-! ### Ranges that are asked for -/

/-- **Ranges are asked for one after the other**: each one by one fetch, with the requests that it
sends. -/
inductive Http.Client.Asks (c : Client) (url : Url) :
    Net → List DownloadRange → List (List Request) → Net → Prop
  | nil {net : Net} : Asks c url net [] [] net
  | cons {net net₁ net' : Net} {r : DownloadRange} {rest : List DownloadRange}
      {requests : List Request} {trails : List (List Request)} :
      c.Sends (some (rangeText r.first.toNat r.last.toNat)) url.withoutUser net requests net₁ →
      c.IsTrail url r requests → Asks c url net₁ rest trails net' →
      Asks c url net (r :: rest) (requests :: trails) net'

namespace Job

variable {job : Job} {client : Client} {net net' : Net} {d d' : Disk} {r : DownloadRange}
  {rest ranges before asked : List DownloadRange} {trails : List (List Request)}
  {answer : Response} {cause : Stop RebuildFault} {w : World} {b : Bench}

/-- Where the missing ranges come from if this client sends the requests. -/
def originWith (job : Job) (client : Client) : Origin :=
  ⟨client, job.url, job.settings.downloadChunkSize.count⟩

/-- **The server delivers ranges**: if they are asked for one after the other, each of them is
served. -/
def Delivers (job : Job) (net : Net) (ranges : List DownloadRange) : Prop :=
  ∃ client patches, job.client = .ok client ∧
    (job.originWith client).deliveries? net ranges = some patches

theorem delivers_nil (hclient : job.client = .ok client) : job.Delivers net [] :=
  ⟨client, [], hclient, rfl⟩

theorem delivers_cons (hclient : job.client = .ok client) :
    job.Delivers net (r :: rest) ↔
      ∃ answer net', (job.originWith client).IsServed net r answer net' ∧
        job.Delivers net' rest := by
  constructor
  · rintro ⟨client', patches, hclient', h⟩
    cases hclient.symm.trans hclient'
    obtain ⟨answer, net', patches', hrun, hserves, hrest, _⟩ := Origin.deliveries?_cons.mp h
    exact ⟨answer, net', ⟨hrun, hserves⟩, client, patches', hclient, hrest⟩
  · rintro ⟨answer, net', ⟨hrun, hserves⟩, client', patches, hclient', hrest⟩
    cases hclient.symm.trans hclient'
    exact ⟨client, _, hclient,
      Origin.deliveries?_cons.mpr ⟨answer, net', patches, hrun, hserves, hrest, rfl⟩⟩

/-- What comes first is delivered before the rest. -/
theorem Delivers.of_isPrefix (h : job.Delivers net ranges) (hbefore : before <+: ranges) :
    job.Delivers net before := by
  obtain ⟨client, _, hclient, -⟩ := id h
  obtain ⟨after, rfl⟩ := hbefore
  induction before generalizing net with
  | nil => exact delivers_nil hclient
  | cons r rest ih =>
    rw [List.cons_append, delivers_cons hclient] at h
    obtain ⟨answer, net', hserved, h⟩ := h
    exact (delivers_cons hclient).mpr ⟨answer, net', hserved, ih h⟩

/-! ### Stopping -/

/-- **How a download stops** when so many ranges were asked for: all of them but the last were
served. -/
inductive Stops (job : Job) (net : Net) (d : Disk) (asked : List DownloadRange) :
    Stop RebuildFault → Prop
  /-- The last range is not served, and the failure names it. -/
  | unserved {before : List DownloadRange} {r : DownloadRange} {fault : DownloadFault} :
      asked = before ++ [r] → job.Delivers net before → ¬ job.Delivers net asked →
      Stops job net d asked (.failed (.download r job.length fault))
  /-- An operation on the output fails. -/
  | refused {kind : IoKind} : job.Delivers net asked.dropLast →
      d.Refuses kind ∨ fileLimit < job.length.toNat →
      Stops job net d asked (.failed (.files kind))
  | crashed : job.Delivers net asked.dropLast → Stops job net d asked .crashed

namespace Stops

theorem congr (h : job.Stops net d' asked cause) (hrefuses : d'.refuses = d.refuses) :
    job.Stops net d asked cause := by
  cases h with
  | unserved hasked hbefore hno => exact .unserved hasked hbefore hno
  | refused hbefore hr => exact .refused hbefore (hr.imp_left (refuses_congr hrefuses))
  | crashed hbefore => exact .crashed hbefore

/-- A range that is served comes before the others. -/
theorem cons (hclient : job.client = .ok client) (h : job.Stops net' d asked cause)
    (hserved : (job.originWith client).IsServed net r answer net') :
    job.Stops net d (r :: asked) cause := by
  have hmore {ranges : List DownloadRange} (hranges : job.Delivers net' ranges) :
      job.Delivers net (r :: ranges) :=
    (delivers_cons hclient).mpr ⟨answer, net', hserved, hranges⟩
  have hlast (hbefore : job.Delivers net' asked.dropLast) :
      job.Delivers net (r :: asked).dropLast := by
    cases asked with
    | nil => exact delivers_nil hclient
    | cons r' rest => exact hmore hbefore
  cases h with
  | unserved hasked hbefore hno =>
    refine .unserved (congrArg (r :: ·) hasked) (hmore hbefore) fun h => hno ?_
    obtain ⟨answer', net'', hserved', h⟩ := (delivers_cons hclient).mp h
    -- the range is served once
    cases hserved.1.symm.trans hserved'.1
    exact h
  | refused hbefore hr => exact .refused (hlast hbefore) hr
  | crashed hbefore => exact .crashed (hlast hbefore)

end Stops

/-- **Downloading asks for ranges as they come**, up to the first one that is not served. -/
theorem ends_downloadRanges_asks (hclient : job.client = .ok client) (b : Bench) (ho : b.IsOpen)
    (total : UInt64)
    (hin : ∀ r ∈ ranges, r.first.toNat ≤ r.last.toNat ∧ r.last.toNat < job.length.toNat) :
    (job.downloadRanges (job.originWith client) total ranges).Ends b
      (fun _ b' => job.Delivers b.2.net ranges ∧
        ∃ trails, client.Asks job.url b.2.net ranges trails b'.2.net)
      fun cause b' => ∃ asked trails, asked <+: ranges ∧
        client.Asks job.url b.2.net asked trails b'.2.net ∧
        job.Stops b.2.net b.2.disk asked cause := by
  induction ranges generalizing b total with
  | nil => exact ⟨delivers_nil hclient, [], .nil⟩
  | cons r rest ih =>
    have hr := hin r List.mem_cons_self
    unfold downloadRanges
    rw [ends_bind]
    refine ((Bench.ends_seekTo b r.first.toNat).and
      ((World.isBeside_net.leaves_onWriter _).ends b)).mono ?_ ?_
    · rintro _ b₁ ⟨⟨h₁, _⟩, hnet₁⟩
      have hrefuses₁ := h₁.carries.refuses
      rw [ends_bind]
      refine (((job.originWith client).ends_fetch r job.length b₁ (h₁.carries.isOpen ho)).and
        ((job.originWith client).ends_fetch_sends r job.length b₁)).mono ?_ ?_
      · rintro n b₂ ⟨⟨answer, hserved, _, h₂, _⟩, requests, hsent, htrail⟩
        rw [hnet₁] at hserved hsent
        rw [ends_bind, ends_orCrash]
        rcases word? (total.toNat + n.toNat) with _ | next
        · exact ⟨[r], [requests], ⟨rest, rfl⟩, .cons hsent htrail .nil, .crashed (delivers_nil hclient)⟩
        · refine (ih b₂ ((h₁.carries.trans h₂.carries).isOpen ho) next fun r' hr' =>
            hin r' (List.mem_cons_of_mem _ hr')).mono ?_ ?_
          · rintro _ b₃ ⟨hrest, trails, hasks⟩
            exact ⟨(delivers_cons hclient).mpr ⟨answer, _, hserved, hrest⟩, requests :: trails,
              .cons hsent htrail hasks⟩
          · rintro cause b₃ ⟨asked, trails, hasked, hasks, hstops⟩
            exact ⟨r :: asked, requests :: trails, List.cons_prefix_cons.mpr ⟨rfl, hasked⟩,
              .cons hsent htrail hasks,
              (hstops.congr (h₁.carries.trans h₂.carries).refuses).cons hclient hserved⟩
      · rintro cause b₂ ⟨⟨_, hcause⟩, requests, hsent, htrail⟩
        rw [hnet₁] at hcause hsent
        refine ⟨[r], [requests], ⟨rest, rfl⟩, .cons hsent htrail .nil, ?_⟩
        rcases hcause with ⟨fault, rfl, hunserved⟩ | hh
        · refine .unserved rfl (delivers_nil hclient) fun h => ?_
          obtain ⟨answer, net', hserved, _⟩ := (delivers_cons hclient).mp h
          exact hunserved answer net' hserved
        · rw [h₁.position] at hh
          cases hh with
          | refused hrefused =>
            refine .refused (delivers_nil hclient)
              (hrefused.imp (refuses_congr hrefuses₁) fun hfar => ?_)
            change fileLimit < r.first.toNat + (r.last.toNat + 1 - r.first.toNat) at hfar
            omega
          | crashed _ => exact .crashed (delivers_nil hclient)
    · rintro cause b₁ ⟨⟨_, kind, rfl, hrefused⟩, hnet₁⟩
      refine ⟨[], [], List.nil_prefix, ?_, .refused (delivers_nil hclient)
        (hrefused.imp_right fun hfar => by omega)⟩
      rw [hnet₁]
      exact .nil

theorem ends_downloadAll_asks (hclient : job.client = .ok client) (b : Bench) (ho : b.IsOpen)
    (hfor : job.plan.IsFor job.length) :
    (job.downloadAll (some (job.originWith client))).Ends b
      (fun _ b' => job.Delivers b.2.net job.plan.download ∧
        ∃ trails, client.Asks job.url b.2.net job.plan.download trails b'.2.net)
      fun cause b' => ∃ asked trails, asked <+: job.plan.download ∧
        client.Asks job.url b.2.net asked trails b'.2.net ∧
        job.Stops b.2.net b.2.disk asked cause := by
  refine ends_downloadAll_cases (fun _ => ?_) fun announced _ => ?_
  · exact ⟨[], [], List.nil_prefix, .nil, .crashed (delivers_nil hclient)⟩
  · refine (ends_downloadRanges_asks hclient (b.1, { b.2 with
      progress := b.2.progress.map (·.announce announced) }) ho 0 hfor.download).mono ?_ ?_
    · rintro n b₁ ⟨hdelivers, trails, hasks⟩
      -- all that can fail now is the check that all bytes have come
      refine ⟨fun _ => ⟨hdelivers, trails, hasks⟩, fun _ _ _ => ?_⟩
      exact ⟨job.plan.download, trails, List.prefix_rfl, hasks,
        .crashed (hdelivers.of_isPrefix (List.dropLast_prefix _))⟩
    · rintro cause b₁ ⟨asked, trails, hasked, hasks, hstops⟩
      exact ⟨asked, trails, hasked, hasks, hstops.congr rfl⟩

/-! ### Whole runs -/

/-- **A run begins to ask for ranges** if nothing is in the way before. -/
structure Begins (job : Job) (w : World) : Prop where
  check : job.plan.check job.length = .ok ()
  client : ∃ client, job.client = .ok client
  missing : job.plan.download ≠ []
  copied : ∃ writer w₁, runOn job.opening w = (.ok writer, w₁) ∧
    ∃ n b, runOn job.copyReuse (writer, w₁) = (.ok n, b)

/-- **Where the download of a run starts**: somebody can send its requests, and what the seed has is
in the output. -/
structure StartsAt (job : Job) (w : World) (client : Client) (b : Bench) : Prop where
  check : job.plan.check job.length = .ok ()
  client : job.client = .ok client
  missing : job.plan.download ≠ []
  copied : ∃ writer w₁, runOn job.opening w = (.ok writer, w₁) ∧
    ∃ n, runOn job.copyReuse (writer, w₁) = (.ok n, b)

theorem StartsAt.begins (h : job.StartsAt w client b) : job.Begins w := by
  obtain ⟨writer, w₁, hopened, n, hcopied⟩ := h.copied
  exact ⟨h.check, ⟨client, h.client⟩, h.missing, writer, w₁, hopened, n, b, hcopied⟩

/-- What comes before the download is work on files. -/
theorem StartsAt.part {ρ : Type} {part : World → ρ} (h : job.StartsAt w client b)
    (hpart : World.IsBeside part) : part b.2 = part w := by
  obtain ⟨writer, w₁, hopened, n, hcopied⟩ := h.copied
  have hopening : job.opening.Leaves part := hpart.leaves_onDisk _
  exact (((hpart.leaves_copyReuse job).ends (writer, w₁)).of_ok hcopied).trans
    ((hopening.ends w).of_ok hopened)

/-- The download starts with an output that can be written, on a disk that refuses as before. -/
theorem StartsAt.ready (h : job.StartsAt w client b) :
    b.IsOpen ∧ b.2.disk.refuses = w.disk.refuses := by
  obtain ⟨writer, w₁, hopened, n, hcopied⟩ := h.copied
  have hopens := (job.ends_opening w).of_ok hopened
  obtain ⟨_, _, _, hlaid, _, _⟩ := (job.ends_copyReuse (writer, w₁) hopens.isOpen).of_ok hcopied
  exact ⟨hlaid.carries.isOpen hopens.isOpen, hlaid.carries.refuses.trans hopens.refuses⟩

/-- **Filling an output is as good as downloading**, if one looks at a part of the world that is
beside the files: either the download does not start, and the part is as before, or it is as the
download leaves it. -/
theorem ends_fill_of_download {ρ : Type} {part : World → ρ} (hpart : World.IsBeside part)
    (good : ρ → Prop) (bad : Stop RebuildFault → ρ → Prop)
    (hdownload : ∀ client b, job.StartsAt w client b →
      (job.downloadAll (some (job.originWith client))).Ends b (fun _ b' => good (part b'.2))
        fun cause b' => bad cause (part b'.2)) :
    job.fill.Ends w
      (fun _ w' => (¬ job.Begins w ∧ job.plan.download = [] ∧ part w' = part w) ∨
        job.Begins w ∧ good (part w'))
      fun cause w' => (¬ job.Begins w ∧ part w' = part w) ∨ job.Begins w ∧ bad cause (part w') := by
  refine ends_fill_cases (fun fault hcheck => ?_) (fun reason _ horigin => ?_)
    fun origin hcheck horigin => ?_
  · refine Or.inl ⟨fun h => ?_, rfl⟩
    cases hcheck.symm.trans h.check
  · refine Or.inl ⟨fun h => ?_, rfl⟩
    obtain ⟨client, hclient⟩ := h.client
    rw [origin?, hclient, if_neg (by simpa using h.missing)] at horigin
    cases horigin
  rw [ends_fill_iff hcheck horigin]
  -- removing an output that is given up is work on files as well
  have hdiscarded (b : Bench) : part b.discarded = part b.2 := hpart b.2 _ b.2.log
  have hopening : job.opening.Leaves part := hpart.leaves_onDisk _
  refine ((ends_self job.opening w).and (hopening.ends w)).mono ?_ ?_
  · rintro writer w₁ ⟨hopened, hpart₁⟩
    have hcopying := (ends_self job.copyReuse (writer, w₁)).and
      ((hpart.leaves_copyReuse job).ends (writer, w₁))
    refine (ends_shielded (ends_orAbandon hcopying)).mono ?_ ?_
    · rintro ⟨reused, writer₂⟩ w₂ ⟨hcopied, hpart₂⟩
      rcases origin?_eq_ok horigin with ⟨hnil, rfl⟩ | ⟨hmissing, client, hclient, rfl⟩
      · exact Or.inl ⟨fun h => h.missing hnil, hnil, hpart₂.trans hpart₁⟩
      · have hstarts : job.StartsAt w client (writer₂, w₂) :=
          ⟨hcheck, hclient, hmissing, writer, w₁, hopened, reused, hcopied⟩
        refine (ends_orAbandon (hdownload client _ hstarts)).mono
          (fun _ _ h => Or.inr ⟨hstarts.begins, h⟩) ?_
        rintro cause w' ⟨b, hbad, hcause⟩
        have hw' : part w' = part b.2 := by
          cases cause with
          | failed _ => rw [hcause, hdiscarded]
          | crashed => rw [hcause]
        rw [hw']
        exact Or.inr ⟨hstarts.begins, hbad⟩
    · rintro cause w' ⟨cause', ⟨b, ⟨hcopied, hpart₂⟩, hcause'⟩, _⟩
      have hw' : part w' = part b.2 := by
        cases cause' with
        | failed _ => rw [hcause', hdiscarded]
        | crashed => rw [hcause']
      refine Or.inl ⟨fun h => ?_, hw'.trans (hpart₂.trans hpart₁)⟩
      obtain ⟨writer', w₁', hopened', n, b', hcopied'⟩ := h.copied
      cases hopened.symm.trans hopened'
      cases hcopied.symm.trans hcopied'
  · rintro cause w₁ ⟨hopened, hpart₁⟩
    refine Or.inl ⟨fun h => ?_, hpart₁⟩
    obtain ⟨writer, w₁', hopened', _⟩ := h.copied
    cases hopened.symm.trans hopened'

/-- What a job sends for ranges. Without anybody to send requests it asks for no range. -/
def Asks (job : Job) (net : Net) (asked : List DownloadRange) (trails : List (List Request))
    (net' : Net) : Prop :=
  (asked = [] ∧ trails = [] ∧ net' = net) ∨
    ∃ client, job.client = .ok client ∧ client.Asks job.url net asked trails net'

/-- **Filling an output** asks for all ranges; or it breaks off before it asks for one, or where
the download stops. -/
theorem ends_fill_asks (job : Job) (w : World) :
    job.fill.Ends w
      (fun _ w' => (job.plan.download ≠ [] → job.Begins w ∧ job.Delivers w.net job.plan.download) ∧
        ∃ trails, job.Asks w.net job.plan.download trails w'.net)
      fun cause w' => (¬ job.Begins w ∧ w'.net = w.net) ∨ job.Begins w ∧
        ∃ asked trails, asked <+: job.plan.download ∧ job.Asks w.net asked trails w'.net ∧
          job.Stops w.net w.disk asked cause := by
  refine (ends_fill_of_download World.isBeside_net
    (fun net => job.Delivers w.net job.plan.download ∧
      ∃ trails, job.Asks w.net job.plan.download trails net)
    (fun cause net => ∃ asked trails, asked <+: job.plan.download ∧
      job.Asks w.net asked trails net ∧ job.Stops w.net w.disk asked cause) ?_).mono ?_ ?_
  · intro client b hstarts
    have hfor := Plan.isFor_of_check hstarts.check
    obtain ⟨ho, hrefuses⟩ := hstarts.ready
    have hends := ends_downloadAll_asks hstarts.client b ho hfor
    rw [hstarts.part World.isBeside_net] at hends
    refine hends.mono ?_ ?_
    · rintro _ _ ⟨hdelivers, trails, hasks⟩
      exact ⟨hdelivers, trails, Or.inr ⟨client, hstarts.client, hasks⟩⟩
    · rintro _ _ ⟨asked, trails, hasked, hasks, hstops⟩
      exact ⟨asked, trails, hasked, Or.inr ⟨client, hstarts.client, hasks⟩, hstops.congr hrefuses⟩
  · rintro _ w' (⟨_, hnil, hnet⟩ | ⟨hbegins, hdelivers, trails, hasks⟩)
    · exact ⟨fun hne => absurd hnil hne, [], Or.inl ⟨hnil, rfl, hnet⟩⟩
    · exact ⟨fun _ => ⟨hbegins, hdelivers⟩, trails, hasks⟩
  · exact fun _ _ h => h

/-- **How far a run gets** that asked for so many ranges, told by its result. -/
inductive Reaches (job : Job) (w : World) (asked : List DownloadRange) :
    Except (Stop RebuildFault) Summary → Prop
  /-- All ranges were served. If the run fails then, it is not because of a download. -/
  | served {result : Except (Stop RebuildFault) Summary} : asked = job.plan.download →
      job.Delivers w.net asked →
      (∀ r length fault, result ≠ .error (.failed (.download r length fault))) →
      Reaches job w asked result
  /-- The run breaks off where the download stops. -/
  | stopped {cause : Stop RebuildFault} : (runOn job.fill w).1 = .error cause →
      job.Stops w.net w.disk asked cause → (cause = .crashed → ¬ job.IsSteady w.progress) →
      Reaches job w asked (.error cause)

/-- No operation on the output fails while it is filled, and nothing crashes: if filling it breaks
off, then because of a range. -/
def IsUnhindered (job : Job) (w : World) : Prop :=
  ∀ cause, (runOn job.fill w).1 = .error cause →
    ∃ r length fault, cause = .failed (.download r length fault)

/-- Nothing is sent when the output is filled. -/
theorem ends_close_late (job : Job) (filled : UInt64 × UInt64 × Writer) (w : World) :
    (job.close filled).Ends w (fun _ w' => w'.net = w.net) fun cause w' =>
      IsLate cause ∧ w'.net = w.net := by
  refine ((ends_close (job.ends_finish_late (filled.2.2, w))).and
    ((World.isBeside_net.leaves_close job filled).ends w)).mono (fun _ _ h => h.2) ?_
  rintro cause w' ⟨⟨_, hlate⟩, hnet⟩
  exact ⟨hlate, hnet⟩

/-- **All ranges were asked for exactly if all but the last are delivered**, if the one that was
asked for last is the first one that is not. -/
theorem eq_iff_delivers_dropLast (hstart : asked <+: ranges) (hasked : asked = before ++ [r])
    (hbefore : job.Delivers net before) (hno : ¬ job.Delivers net asked) :
    asked = ranges ↔ job.Delivers net ranges.dropLast := by
  constructor
  · rintro rfl
    rw [hasked, List.dropLast_concat]
    exact hbefore
  · intro hdelivers
    obtain ⟨after, rfl⟩ := hstart
    by_cases hafter : after = []
    · rw [hafter, List.append_nil]
    · rw [List.dropLast_append_of_ne_nil hafter] at hdelivers
      exact absurd (hdelivers.of_isPrefix (List.prefix_append _ _)) hno

/-- **A run asks for a prefix of its plan.** The requests that it sends are those for the first so
many ranges of its plan, range by range in this order; every one of these ranges lies in the target.
Nothing is asked for if the run does not begin to. Otherwise it goes on until a range is not served,
and then it fails with that range; so if nothing else is in the way, it asks for all of them exactly
if all but the last are delivered. -/
theorem asks_in_plan_order (job : Job) (w : World) :
    ∃ asked trails, asked <+: job.plan.download ∧
      job.Asks w.net asked trails (runOn job.run w).2.net ∧
      (∀ r ∈ asked, r.first.toNat ≤ r.last.toNat ∧ r.last.toNat < job.length.toNat) ∧
      (¬ job.Begins w → asked = []) ∧
      (job.Begins w → job.Reaches w asked (runOn job.run w).1) ∧
      (job.Begins w → job.IsUnhindered w →
        (asked = job.plan.download ↔ job.Delivers w.net job.plan.download.dropLast)) := by
  rcases hfill : runOn job.fill w with ⟨cause | filled, w₁⟩
  · have hrun := runOn_run_of_unfilled hfill
    have hsteady (hcause : cause = .crashed) : ¬ job.IsSteady w.progress :=
      ((job.ends_run_steady w).of_error hrun hcause).2
    rw [hrun]
    rcases (job.ends_fill_asks w).of_error hfill with
      ⟨hno, hnet⟩ | ⟨hbegins, asked, trails, hasked, hasks, hstops⟩
    · exact ⟨[], [], List.nil_prefix, Or.inl ⟨rfl, rfl, hnet⟩, fun r hr => (nomatch hr),
        fun _ => rfl, fun h => absurd h hno, fun h => absurd h hno⟩
    · have hfor := Plan.isFor_of_check hbegins.check
      refine ⟨asked, trails, hasked, hasks, fun r hr => hfor.download r (hasked.subset hr),
        fun h => absurd hbegins h, fun _ => .stopped (by rw [hfill]) hstops hsteady, ?_⟩
      intro _ hunhindered
      obtain ⟨r, length, fault, rfl⟩ := hunhindered cause (by rw [hfill])
      cases hstops with
      | unserved hlast hbefore hno => exact eq_iff_delivers_dropLast hasked hlast hbefore hno
  · obtain ⟨hall, trails, hasks⟩ := (job.ends_fill_asks w).of_ok hfill
    have hclose := job.ends_close_late filled w₁
    rcases hresult : runOn (job.close filled) w₁ with ⟨result, w'⟩
    have hrun : runOn job.run w = (result, w') := (runOn_run_closing hfill).trans hresult
    have hnet : w'.net = w₁.net ∧
        ∀ r length fault, result ≠ .error (.failed (.download r length fault)) := by
      cases result with
      | ok summary => exact ⟨hclose.of_ok hresult, nofun⟩
      | error cause =>
        obtain ⟨hlate, hnet⟩ := hclose.of_error hresult
        refine ⟨hnet, fun r length fault heq => ?_⟩
        cases heq
        rcases hlate with ⟨_, heq⟩ | ⟨_, _, heq⟩ <;> cases heq
    rw [hrun]
    refine ⟨job.plan.download, trails, List.prefix_rfl, hnet.1 ▸ hasks, fun r hr => ?_, fun hno => ?_,
      fun hbegins => .served rfl (hall hbegins.missing).2 hnet.2, fun hbegins _ => ?_⟩
    · have hbegins := (hall (List.ne_nil_of_mem hr)).1
      exact (Plan.isFor_of_check hbegins.check).download r hr
    · exact Decidable.of_not_not fun hne => hno (hall hne).1
    · exact ⟨fun _ => (hall hbegins.missing).2.of_isPrefix (List.dropLast_prefix _), fun _ => rfl⟩

/-- A job that misses two bytes, and then both of them again. -/
def missing : Job :=
  { repeating with plan := ⟨none, [], [⟨0, 0⟩, ⟨1, 1⟩, ⟨0, 1⟩]⟩ }

/-- A world with a server that answers once and then closes every connection. -/
def answered : World :=
  { counted with
    net := ⟨fun served _ => if served.isEmpty then .answer 206 [] ⟨[[97]], false⟩ else .closed, []⟩ }

/-- The first byte is delivered, and the second one is not. -/
theorem delivers_answered : missing.Delivers answered.net [⟨0, 0⟩] ∧
    ¬ missing.Delivers answered.net [⟨0, 0⟩, ⟨1, 1⟩] := by
  have hone : (missing.originWith ⟨productName⟩).deliveries? answered.net [⟨0, 0⟩] =
      some [(0, [97])] := by decide +kernel
  have htwo : (missing.originWith ⟨productName⟩).deliveries? answered.net [⟨0, 0⟩, ⟨1, 1⟩] =
      none := by decide +kernel
  refine ⟨⟨_, _, rfl, hone⟩, ?_⟩
  rintro ⟨client, patches, hclient, h⟩
  cases hclient
  rw [htwo] at h
  cases h

/-- The job begins to ask for ranges. -/
theorem begins_missing : missing.Begins answered := by
  have hopen : missing.CanOpen answered.disk := by
    refine ⟨by decide, fun path hpath => ?_⟩
    cases hpath
  obtain ⟨writer, w₁, hopened, _⟩ :=
    (ends_opening_of_canOpen (isObliging_ofTree _ _) hopen).exists_ok
  exact ⟨rfl, ⟨_, rfl⟩, List.cons_ne_nil _ _, writer, w₁, hopened, 0, (writer, w₁), rfl⟩

/-- **The third range is not asked for** when the second one is not served, and the failure names
the second one. -/
theorem asks_in_plan_order_closed :
    ∃ trails fault, missing.Asks answered.net [⟨0, 0⟩, ⟨1, 1⟩] trails
        (runOn missing.run answered).2.net ∧
      (runOn missing.run answered).1 = .error (.failed (.download ⟨1, 1⟩ 2 fault)) := by
  obtain ⟨hone, htwo⟩ := delivers_answered
  obtain ⟨asked, trails, hasked, hasks, _, _, hreaches, _⟩ := asks_in_plan_order missing answered
  have hreaches := hreaches begins_missing
  rcases hresult : (runOn missing.run answered).1 with cause | summary
  · rw [hresult] at hreaches
    cases hreaches with
    | served hall hdelivers _ =>
      rw [hall] at hdelivers
      exact absurd (hdelivers.of_isPrefix (by decide)) htwo
    | stopped _ hstops hsteady =>
      cases hstops with
      | @unserved before r fault hlast hbefore hno =>
        -- one range is served and two are not, so the failure is at the second one
        have hlow : 1 < asked.length := Nat.lt_of_not_le fun hle =>
          hno (hone.of_isPrefix (List.prefix_of_prefix_length_le hasked (by decide) hle))
        have hhigh : before.length < 2 := Nat.lt_of_not_le fun hle =>
          htwo (hbefore.of_isPrefix (List.prefix_of_prefix_length_le (by decide)
            ((List.prefix_append before [r]).trans (hlast ▸ hasked)) hle))
        have hlen : asked.length = 2 := by
          rw [hlast, List.length_append, List.length_singleton] at hlow ⊢
          omega
        have htwice : asked = [⟨0, 0⟩, ⟨1, 1⟩] := by
          rw [List.prefix_iff_eq_take.mp hasked, hlen]
          rfl
        have hr : r = ⟨1, 1⟩ := by
          have hgetLast := congrArg List.getLast? (hlast.symm.trans htwice)
          simpa using hgetLast
        rw [htwice] at hasks
        rw [hr]
        exact ⟨trails, fault, hasks, rfl⟩
      | refused _ hr =>
        rcases hr with hr | hlong
        · exact (isObliging_ofTree _ _ _ hr).elim
        · exact absurd hlong (by decide)
      | crashed _ =>
        refine (hsteady rfl ⟨?_, by decide, by decide, ?_⟩).elim
        · exact length?_ne_none (Plan.isFor_of_check begins_missing.check) (by decide)
        · intro t ht
          cases ht
          rfl
  · rw [hresult] at hreaches
    cases hreaches with
    | served hall hdelivers _ =>
      rw [hall] at hdelivers
      exact absurd (hdelivers.of_isPrefix (by decide)) htwo

end Job
end RangeSync
