import RangeSync.Proofs.Commit
import RangeSync.Proofs.Copy
import RangeSync.Proofs.Download

/-!
# Filling an output

A run of a job has two halves. In the first one, `RangeSync.Job.fill`, the plan is checked, the
output is opened, and the ranges are put into it; in the second one the output is finished. Here the
first half is followed to its end.

* **A filled output is an output of the plan** (`RangeSync.Job.ends_fill`): every range has been
  laid over it, in order and as a whole, whatever the server answered
  (`RangeSync.Job.Fills.makes`). If the seed is not where the output goes, it is known byte by byte
  (`RangeSync.Job.Fills.exists_delivered`).
* A run that breaks off has broken off in one of the five ways of `RangeSync.Job.Aborts`. They tell
  apart what becomes of the output: nothing was opened, or the output was removed, or – and these
  are the ways that a caller has to know about – it was left behind.
* Nothing breaks off if nothing is in the way (`RangeSync.Job.CanFill`).
-/

namespace RangeSync

open Act Disk

/-! ### Work with an output -/

variable {α : Type} {writer : Writer} {w : World} {act : BenchAct α} {post : α → Bench → Prop}
  {fail : Stop RebuildFault → Bench → Prop}

theorem Job.ends_withWriter (h : act.Ends (writer, w) post fail) :
    (Job.withWriter writer act).Ends w
      (fun result w' =>
        match result.1 with
        | .ok a => post a (result.2, w')
        | .error cause => fail cause (result.2, w'))
      fun _ _ => False := by
  unfold Job.withWriter
  rw [ends_bind, ends_get]
  rcases hrun : runOn act (writer, w) with ⟨cause | a, writer', w'⟩
  · exact h.of_error hrun
  · exact h.of_ok hrun

/-- The world after an output was given up. -/
def Bench.discarded (b : Bench) : World :=
  { b.2 with disk := (runOn b.1.discard b.2.disk).2 }

theorem Job.ends_orAbandon (h : act.Ends (writer, w) post fail) :
    (Job.orAbandon writer act).Ends w (fun result w' => post result.1 (result.2, w'))
      fun cause w' => ∃ b, fail cause b ∧
        match cause with
        | .failed _ => w' = b.discarded
        | .crashed => w' = b.2 := by
  unfold Job.orAbandon
  rw [ends_bind]
  refine (Job.ends_withWriter h).mono ?_ fun _ _ h => h.elim
  rintro ⟨result, writer'⟩ w' hresult
  rcases result with (fault | _) | a
  · exact ⟨(writer', w'), hresult, rfl⟩
  · exact ⟨(writer', w'), hresult, rfl⟩
  · exact hresult

/-- A crash in work of its own is a failure of the run. -/
theorem Job.ends_shielded {act : Work (UInt64 × Writer)} {post : UInt64 × Writer → World → Prop}
    {fail : Stop RebuildFault → World → Prop} (h : act.Ends w post fail) :
    (Job.shielded act).Ends w post fun cause w' =>
      ∃ cause', fail cause' w' ∧
        match cause' with
        | .failed fault => cause = .failed fault
        | .crashed => cause = .failed (.files .other) := by
  unfold Job.shielded
  rw [ends_tryCatch]
  refine h.mono (fun _ _ h => h) ?_
  rintro (fault | _) w' hfail
  · exact ⟨_, hfail, rfl⟩
  · exact ⟨_, hfail, rfl⟩

namespace Job

variable {job : Job} {b b' : Bench} {w' : World}

/-! ### Opening the output -/

/-- The path where the output is to be found in the end. -/
def path (job : Job) : String :=
  match job.destination with
  | .file path => path
  | .replaceSeed => job.seed

theorem path_of_file {path : String} (h : job.destination = .file path) : job.path = path := by
  rw [Job.path, h]

theorem path_of_replaceSeed (h : job.destination = .replaceSeed) : job.path = job.seed := by
  rw [Job.path, h]

/-- Whether a link at the end of the path is followed when the output is put there: one that takes
the place of a seed takes that of the link. -/
def follows (job : Job) : Bool :=
  match job.destination with
  | .file _ => true
  | .replaceSeed => false

theorem follows_of_file {path : String} (h : job.destination = .file path) :
    job.follows = true := by
  rw [follows, h]

theorem follows_of_replaceSeed (h : job.destination = .replaceSeed) : job.follows = false := by
  rw [follows, h]

/-- Where the output of a job is opened: in the file that its path leads to, or nowhere in the
tree. -/
def OpensAt (job : Job) (d : Disk) (site : Option Location) (d' : Disk) : Prop :=
  match job.destination with
  | .replaceSeed => site = none ∧ d.Kept d'
  | .file path => ∃ s, d.tree.walk d.cwd true path = .ok s ∧ s.IsOpen ∧ site = some s.place ∧
      d'.tree.get? s.place =
        some (.file (List.replicate job.length.toNat 0) (modeFor s) none) ∧
      Along (Tree.SameOff s.place d.tree) d d'

/-- **An opened output**: zeros, in a world that is as before but for the file at the site. -/
structure Opens (job : Job) (w : World) (b : Bench) : Prop where
  disk : job.OpensAt w.disk b.1.site b.2.disk
  path : b.1.path = job.path
  position : b.1.position = 0
  zeros : b.bytes = List.replicate job.length.toNat 0
  net : b.2.net = w.net
  progress : b.2.progress = w.progress

/-- An output in the place of the seed is opened without a file. -/
theorem Opens.kept (h : job.Opens w b) (hdest : job.destination = .replaceSeed) :
    b.1.site = none ∧ w.disk.Kept b.2.disk := by
  have hd := h.disk
  rwa [OpensAt, hdest] at hd

/-- An output of its own is opened as a file of zeros, and the tree is as before off its place. -/
theorem Opens.fresh {path : String} (h : job.Opens w b) (hdest : job.destination = .file path) :
    ∃ s, w.disk.tree.walk w.disk.cwd true path = .ok s ∧ s.IsOpen ∧ b.1.site = some s.place ∧
      b.2.disk.tree.get? s.place =
        some (.file (List.replicate job.length.toNat 0) (modeFor s) none) ∧
      Along (Tree.SameOff s.place w.disk.tree) w.disk b.2.disk := by
  have hd := h.disk
  rwa [OpensAt, hdest] at hd

theorem Opens.along (h : job.Opens w b) : Along (fun _ => True) w.disk b.2.disk := by
  rcases hdest : job.destination with path | _
  · obtain ⟨s, _, _, _, _, halong⟩ := h.fresh hdest
    exact halong.mono fun _ _ => trivial
  · exact (h.kept hdest).2.along

theorem Opens.cwd (h : job.Opens w b) : b.2.disk.cwd = w.disk.cwd :=
  h.along.cwd

theorem Opens.refuses (h : job.Opens w b) : b.2.disk.refuses = w.disk.refuses :=
  h.along.refuses

theorem Opens.isOpen (h : job.Opens w b) : b.IsOpen := by
  intro place hsite
  rcases hdest : job.destination with path | _
  · obtain ⟨s, _, _, hs, hfile, _⟩ := h.fresh hdest
    rw [hs] at hsite
    cases hsite
    exact ⟨_, _, _, hfile⟩
  · rw [(h.kept hdest).1] at hsite
    cases hsite

/-- An output of its own has another place than this one. -/
def IsApartFrom (job : Job) (d : Disk) (place : Location) : Prop :=
  ∀ path s, job.destination = .file path → d.tree.walk d.cwd true path = .ok s → s.place ≠ place

/-- An output in the place of the seed is nowhere else. -/
theorem isApartFrom_of_replaceSeed (h : job.destination = .replaceSeed) (d : Disk)
    (place : Location) : job.IsApartFrom d place := by
  intro path s hdest
  rw [h] at hdest
  cases hdest

/-- **The seed is still there when the output has been opened**, with all its bytes, if it is not
where the output goes. -/
theorem Opens.seed (h : job.Opens w b) {place : Location} {seed : List UInt8}
    (hseed : w.disk.FileAt job.seed place seed) (hapart : job.IsApartFrom w.disk place) :
    b.2.disk.FileAt job.seed place seed ∧ b.1.site ≠ some place := by
  rcases hdest : job.destination with path | _
  · obtain ⟨mode, time, hw⟩ := hseed
    obtain ⟨s, hs, hopen, hsite, _, halong⟩ := h.fresh hdest
    have hne := hapart path s hdest hs
    have hoff := halong.tree (Tree.SameOff.refl _ _)
    refine ⟨⟨mode, time, ?_⟩, ?_⟩
    · rw [h.cwd]
      exact Tree.walk_apart hw hs hopen hs hopen hne hoff
    · rw [hsite]
      exact fun heq => hne (Option.some.inj heq)
  · obtain ⟨hsite, hk⟩ := h.kept hdest
    constructor
    · rw [FileAt, hk.tree, hk.cwd]
      exact hseed
    · rw [hsite]
      exact nofun

/-- The output can be opened. -/
def CanOpen (job : Job) (d : Disk) : Prop :=
  job.length.toNat ≤ fileLimit ∧ ∀ path, job.destination = .file path → d.CanCreate path

/-- The step of a run that opens its output. -/
def opening (job : Job) : Work Writer :=
  World.onDisk (Writer.openAt job.destination job.seed job.length
    job.settings.stagingMemoryLimit.count.toNat)

/-- **Opening the output**: if it fails, nothing was done, or the file that was opened stays behind
without its bytes. -/
theorem ends_opening (job : Job) (w : World) :
    job.opening.Ends w
      (fun writer w' => job.Opens w (writer, w'))
      fun cause w' => ∃ kind, cause = .failed (.files kind) ∧
        (w.disk.IsObliging → ¬ job.CanOpen w.disk) ∧
        (w.disk.Kept w'.disk ∨
          ∃ path s, job.destination = .file path ∧
            w.disk.tree.walk w.disk.cwd true path = .ok s ∧ s.IsOpen ∧
            w'.disk.tree.get? s.place = some (.file [] (modeFor s) none) ∧
            Along (Tree.SameOff s.place w.disk.tree) w.disk w'.disk ∧
            (w'.disk.Halted kind ∨ fileLimit < job.length.toNat)) := by
  unfold opening
  rw [Bench.ends_onDisk]
  rcases hdest : job.destination with path | _
  · refine (Writer.ends_openAt_file w.disk path job.seed job.length _).mono ?_ ?_
    · rintro _ d ⟨s, hw, hs, hlen, rfl, hget, halong⟩
      refine ⟨?_, ?_, rfl, ?_, rfl, rfl⟩
      · unfold OpensAt
        rw [hdest]
        exact ⟨s, hw, hs, rfl, hget, halong⟩
      · exact (path_of_file hdest).symm
      · exact bytesAt_eq hget
    · rintro kind d (⟨hk, hr⟩ | ⟨s, hw, hs, hget, halong, hr⟩)
      · refine ⟨kind, rfl, fun hobliging hcan => ?_, Or.inl hk⟩
        rcases hr with hr | hr
        · exact hobliging kind hr
        · exact hr (hcan.2 path hdest)
      · refine ⟨kind, rfl, fun hobliging hcan => ?_,
          Or.inr ⟨path, s, rfl, hw, hs, hget, halong, hr⟩⟩
        rcases hr with hr | hr
        · exact hobliging kind (hr.refuses halong.refuses)
        · exact absurd hcan.1 (by omega)
  · refine (Writer.ends_openAt_replaceSeed w.disk job.seed job.length _).mono ?_ ?_
    · rintro writer d ⟨hk, hsite, hpath, _, hposition, hbytes⟩
      refine ⟨?_, ?_, hposition, hbytes, rfl, rfl⟩
      · unfold OpensAt
        rw [hdest]
        exact ⟨hsite, hk⟩
      · exact hpath.trans (path_of_replaceSeed hdest).symm
    · rintro kind d ⟨hk, hr⟩
      refine ⟨kind, rfl, fun hobliging hcan => ?_, Or.inl hk⟩
      rcases hr with hr | hr
      · exact hobliging kind hr
      · exact absurd hcan.1 (by omega)

/-- An output that can be opened is opened, if the disk does what it is told. -/
theorem ends_opening_of_canOpen (hobliging : w.disk.IsObliging) (hopen : job.CanOpen w.disk) :
    job.opening.Ends w (fun writer w' => job.Opens w (writer, w')) fun _ _ => False := by
  refine (job.ends_opening w).mono (fun _ _ hopens => hopens) ?_
  rintro cause w' ⟨_, _, hno, _⟩
  exact hno hobliging hopen

/-! ### Filling the output -/

/-- **The first half of a run**: everything before the output is finished. The answer is how many
bytes were reused and downloaded, and the output. -/
def fill (job : Job) : Work (UInt64 × UInt64 × Writer) := do
  Act.ofExcept (fun fault => .failed (.plan fault)) (job.plan.check job.length)
  let origin ← Act.ofExcept (fun reason => .failed (.client reason)) job.origin?
  let writer ← job.opening
  let (reused, writer) ← shielded (orAbandon writer job.copyReuse)
  let (downloaded, writer) ← orAbandon writer (job.downloadAll origin)
  pure (reused, downloaded, writer)

/-- **The second half of a run**: the output is finished, whatever has been put into it. -/
def close (job : Job) (filled : UInt64 × UInt64 × Writer) : Work Summary := do
  match ← withWriter filled.2.2 job.finish with
  | (.error stop, _) => throw stop
  | (.ok path, _) =>
    pure ⟨path, filled.1, filled.2.1, job.plan.download.length, job.expected.isSome⟩

/-- A run fills the output and finishes it. -/
theorem run_eq (job : Job) : job.run = job.fill >>= job.close := by
  simp only [run, fill, opening, bind_assoc, pure_bind]
  rfl

/-- A run whose output cannot be filled ends there. -/
theorem runOn_run_of_unfilled {job : Job} {w w' : World} {cause : Stop RebuildFault}
    (hfill : runOn job.fill w = (.error cause, w')) : runOn job.run w = (.error cause, w') := by
  rw [run_eq, runOn_bind, hfill]

/-- A run whose output has been filled closes it. -/
theorem runOn_run_closing {job : Job} {w w' : World} {filled : UInt64 × UInt64 × Writer}
    (hfill : runOn job.fill w = (.ok filled, w')) :
    runOn job.run w = runOn (job.close filled) w' := by
  rw [run_eq, runOn_bind, hfill]

/-- **The ways in which filling an output breaks off**, with the world that is left. -/
inductive Aborts (job : Job) (w : World) : Stop RebuildFault → World → Prop
  /-- Nothing was done. -/
  | early {fault : RebuildFault} {w' : World} :
      w.disk.Kept w'.disk → Aborts job w (.failed fault) w'
  /-- The file of the output was emptied, and then its length could not be set. -/
  | unsized {kind : IoKind} {w' : World} {path : String} {s : Spot} :
      job.destination = .file path → w.disk.tree.walk w.disk.cwd true path = .ok s → s.IsOpen →
      w'.disk.tree.get? s.place = some (.file [] (modeFor s) none) →
      Along (Tree.SameOff s.place w.disk.tree) w.disk w'.disk →
      (w'.disk.Halted kind ∨ fileLimit < job.length.toNat) →
      Aborts job w (.failed (.files kind)) w'
  /-- The output was given up. -/
  | abandoned {fault : RebuildFault} {b₁ b₂ : Bench} :
      job.Opens w b₁ → Bench.Carries b₁ b₂ → Aborts job w (.failed fault) b₂.discarded
  /-- The number of reused bytes left its 64 bits, and the output was left as it was. -/
  | overflowed {b₁ b₂ : Bench} :
      job.Opens w b₁ → Bench.Carries b₁ b₂ → UInt64.size ≤ job.plan.reused →
      Aborts job w (.failed (.files .other)) b₂.2
  /-- The run crashed, and the output was left as it was. -/
  | crashed {b₁ b₂ : Bench} :
      job.Opens w b₁ → Bench.Carries b₁ b₂ → job.plan.IsFor job.length →
      ¬ job.IsSteady w.progress →
      Aborts job w .crashed b₂.2

/-- **Nothing is in the way of filling the output** from a seed and with what is delivered. -/
structure CanFill (job : Job) (w : World) (place : Location) (seed : List UInt8)
    (patches : List Patch) : Prop where
  check : job.plan.check job.length = .ok ()
  obliging : w.disk.IsObliging
  opens : job.CanOpen w.disk
  isSeed : job.plan.reuse ≠ [] → w.disk.FileAt job.seed place seed
  apart : job.IsApartFrom w.disk place
  source : ∀ r ∈ job.plan.reuse, r.IsIn seed
  reach : ∀ r ∈ job.plan.reuse, r.source.toNat ≤ fileLimit
  reused : job.plan.reused < UInt64.size
  steady : job.IsSteady w.progress
  delivers : job.deliveries? w.net = some patches

/-- **What a filled output is**: zeros, with what was copied and what was delivered laid over it.
What was copied is the seed's, if the output does not go where the seed is. -/
structure Fills (job : Job) (w : World) (b : Bench) : Prop where
  isFor : job.plan.IsFor job.length
  opened : ∃ b₁, job.Opens w b₁ ∧ Bench.Carries b₁ b
  parts : ∃ copied delivered : List Patch,
    copied.map Patch.span = job.plan.reuse.map ReuseRange.span ∧
      job.deliveries? w.net = some delivered ∧
      b.bytes = patched (List.replicate job.length.toNat 0) (copied ++ delivered) ∧
      ∀ place seed, w.disk.FileAt job.seed place seed → job.IsApartFrom w.disk place →
        copied = job.plan.reuse.map (·.slice seed)

section

variable {place : Location} {seed : List UInt8} {patches : List Patch}

theorem Fills.makes (h : job.Fills w b) : job.plan.Makes job.length.toNat b.bytes := by
  obtain ⟨copied, delivered, hspans, hdelivers, hbytes, _⟩ := h.parts
  refine ⟨copied ++ delivered, ?_, hbytes⟩
  rw [List.map_append, hspans, map_span_of_deliveries? hdelivers, Plan.spans]

/-- **Every range that was copied was in the seed.** -/
theorem Fills.source (h : job.Fills w b) (hseed : w.disk.FileAt job.seed place seed)
    (hapart : job.IsApartFrom w.disk place) : ∀ r ∈ job.plan.reuse, r.IsIn seed := by
  obtain ⟨copied, _, hspans, _, _, hcopied⟩ := h.parts
  rw [hcopied place seed hseed hapart, List.map_map] at hspans
  intro r hr
  exact ReuseRange.length_slice_iff.mp (congrArg Prod.snd (List.map_inj_left.mp hspans r hr))

/-- **The exact output**: what the seed has and what was delivered. -/
theorem Fills.exists_delivered (h : job.Fills w b) (hseed : w.disk.FileAt job.seed place seed)
    (hapart : job.IsApartFrom w.disk place) :
    ∃ delivered, job.deliveries? w.net = some delivered ∧
      b.bytes = patched (List.replicate job.length.toNat 0)
        (job.plan.reuse.map (·.slice seed) ++ delivered) := by
  obtain ⟨copied, delivered, _, hdelivers, hbytes, hcopied⟩ := h.parts
  rw [hcopied place seed hseed hapart] at hbytes
  exact ⟨delivered, hdelivers, hbytes⟩

theorem Fills.makesFrom (h : job.Fills w b) (hseed : w.disk.FileAt job.seed place seed)
    (hapart : job.IsApartFrom w.disk place) :
    job.plan.MakesFrom seed job.length.toNat b.bytes := by
  obtain ⟨delivered, hdelivers, hbytes⟩ := h.exists_delivered hseed hapart
  exact ⟨delivered, map_span_of_deliveries? hdelivers, hbytes⟩

theorem Fills.exact (h : job.Fills w b) (hc : job.CanFill w place seed patches) :
    b.bytes = patched (List.replicate job.length.toNat 0)
      (job.plan.reuse.map (·.slice seed) ++ patches) := by
  obtain ⟨copied, delivered, hspans, hdelivers, hbytes, hcopied⟩ := h.parts
  have hslices : copied = job.plan.reuse.map (·.slice seed) := by
    by_cases hreuse : job.plan.reuse = []
    · rw [hreuse] at hspans ⊢
      exact List.map_eq_nil_iff.mp hspans
    · exact hcopied place seed (hc.isSeed hreuse) hc.apart
  rw [hbytes, hslices, Option.some.inj (hdelivers.symm.trans hc.delivers)]

theorem CanFill.canCopyAll (hc : job.CanFill w place seed patches) (h : job.Opens w b)
    (hreuse : job.plan.reuse ≠ []) : job.CanCopyAll b place seed := by
  obtain ⟨hseed, hsite⟩ := h.seed (hc.isSeed hreuse) hc.apart
  refine ⟨hc.obliging.congr h.refuses, hseed, hsite, hc.source, hc.reach, fun r hr => ?_,
    hc.reused⟩
  have := (Plan.isFor_of_check hc.check).reuse r hr
  have := hc.opens.1
  omega

theorem CanFill.canDownloadAll (hc : job.CanFill w place seed patches) (h : job.Opens w b)
    (h' : Bench.Carries b b') (hw : b.OnlyFiles b') : job.CanDownloadAll b' patches := by
  refine ⟨(hc.obliging.congr h.refuses).congr h'.refuses, fun r hr => ?_, ?_, ?_⟩
  · have := (Plan.isFor_of_check hc.check).download r hr
    have := hc.opens.1
    change r.first.toNat + (r.last.toNat + 1 - r.first.toNat) ≤ fileLimit
    omega
  · rw [hw.progress, h.progress]
    exact hc.steady
  · rw [hw.net, h.net]
    exact hc.delivers

end

/-- Once the plan is checked and the origin is known, the output is opened, and what the seed has is
put into it before what is downloaded. -/
theorem ends_fill_iff {origin : Option Origin} {post : UInt64 × UInt64 × Writer → World → Prop}
    {fail : Stop RebuildFault → World → Prop} (hcheck : job.plan.check job.length = .ok ())
    (horigin : job.origin? = .ok origin) :
    job.fill.Ends w post fail ↔
      job.opening.Ends w
        (fun writer w₁ => (shielded (orAbandon writer job.copyReuse)).Ends w₁
          (fun copied w₂ => (orAbandon copied.2 (job.downloadAll origin)).Ends w₂
            (fun downloaded w' => post (copied.1, downloaded) w') fail) fail) fail := by
  unfold fill
  rw [ends_bind, ends_ofExcept, hcheck]
  dsimp only
  rw [ends_bind, ends_ofExcept, horigin]
  dsimp only
  simp only [ends_bind, ends_pure]

/-- **The plan is checked and the client is made before anything is opened**: if one of the two
fails, nothing has been done. -/
theorem ends_fill_cases {post : UInt64 × UInt64 × Writer → World → Prop}
    {fail : Stop RebuildFault → World → Prop}
    (hfault : ∀ fault, job.plan.check job.length = .error fault → fail (.failed (.plan fault)) w)
    (hreason : ∀ reason, job.plan.check job.length = .ok () → job.origin? = .error reason →
      fail (.failed (.client reason)) w)
    (hready : ∀ origin, job.plan.check job.length = .ok () → job.origin? = .ok origin →
      job.fill.Ends w post fail) :
    job.fill.Ends w post fail := by
  rcases hcheck : job.plan.check job.length with fault | _
  · unfold fill
    rw [ends_bind, ends_ofExcept, hcheck]
    exact hfault fault hcheck
  · rcases horigin : job.origin? with reason | origin
    · unfold fill
      rw [ends_bind, ends_ofExcept, hcheck]
      dsimp only
      rw [ends_bind, ends_ofExcept, horigin]
      exact hreason reason hcheck horigin
    · exact hready origin hcheck horigin

/-- **Filling an output** makes an output of the plan, or breaks off. -/
theorem ends_fill (job : Job) (w : World) :
    job.fill.Ends w
      (fun result w' => result.1.toNat = job.plan.reused ∧
        result.2.1.toNat = job.plan.downloaded ∧ job.Fills w (result.2.2, w'))
      fun cause w' => job.Aborts w cause w' ∧
        ∀ place seed patches, ¬ job.CanFill w place seed patches := by
  refine ends_fill_cases (fun fault hcheck => ?_) (fun reason _ horigin => ?_)
    fun origin hcheck horigin => ?_
  · refine ⟨.early (Kept.refl _), fun place seed patches hc => ?_⟩
    cases hcheck.symm.trans hc.check
  · refine ⟨.early (Kept.refl _), fun place seed patches hc => ?_⟩
    have hnothing := hc.delivers
    rw [deliveries?, horigin] at hnothing
    cases hnothing
  have hfor := Plan.isFor_of_check hcheck
  rw [ends_fill_iff hcheck horigin]
  refine (job.ends_opening w).mono ?_ ?_
  · intro writer w₁ hopens
    -- what fails from here on is given up, with the bytes that it has so far
    refine (ends_shielded (ends_orAbandon
      (job.ends_copyReuse (writer, w₁) hopens.isOpen))).mono ?_ ?_
    · rintro ⟨reused, writer₂⟩ w₂ ⟨copied, hspans, hreused, h₂, hp₂, hslices⟩
      refine (ends_orAbandon (job.ends_downloadAll horigin (writer₂, w₂)
        (h₂.carries.isOpen hopens.isOpen))).mono ?_ ?_
      · rintro ⟨downloaded, writer₃⟩ w₃ ⟨delivered, hdelivers, hdownloaded, h₃⟩
        refine ⟨hreused, hdownloaded, hfor, ⟨_, hopens, h₂.carries.trans h₃.carries⟩, copied,
          delivered, hspans, ?_, ?_, fun place seed hseed hapart => ?_⟩
        · rw [← hdelivers, hp₂.net, hopens.net]
        · change Bench.bytes (writer₃, w₃) = _
          rw [(h₂.append h₃).bytes, hopens.zeros]
        · obtain ⟨hfile, hsite⟩ := hopens.seed hseed hapart
          exact hslices place seed hfile hsite
      · rintro cause w' ⟨b, ⟨hb, hno, hcrash⟩, hcause⟩
        have hnone (place : Location) (seed : List UInt8) (patches : List Patch) :
            ¬ job.CanFill w place seed patches := fun hc =>
          hno patches (hc.canDownloadAll hopens h₂.carries hp₂)
        refine ⟨?_, hnone⟩
        cases cause with
        | failed fault =>
          rw [hcause]
          exact .abandoned hopens (h₂.carries.trans hb)
        | crashed =>
          have hunsteady := hcrash rfl
          rw [hp₂.progress, hopens.progress] at hunsteady
          rw [hcause]
          exact .crashed hopens (h₂.carries.trans hb) hfor hunsteady
    · rintro cause w' ⟨cause', ⟨b, ⟨⟨_, hb, _⟩, hreuse, hno, hover⟩, hcause'⟩, hcause⟩
      have hnone (place : Location) (seed : List UInt8) (patches : List Patch) :
          ¬ job.CanFill w place seed patches := fun hc =>
        hno place seed (hc.canCopyAll hopens hreuse)
      refine ⟨?_, hnone⟩
      cases cause' with
      | failed fault =>
        rw [hcause', hcause]
        exact .abandoned hopens hb.carries
      | crashed =>
        rw [hcause', hcause]
        exact .overflowed hopens hb.carries (hover rfl)
  · rintro cause w₁ ⟨kind, rfl, hcan, hleft⟩
    refine ⟨?_, fun place seed patches hc => hcan hc.obliging hc.opens⟩
    rcases hleft with hk | ⟨path, s, hdest, hw, hs, hget, halong, hr⟩
    · exact .early hk
    · -- the output is there, but it could not be given its length
      exact .unsized hdest hw hs hget halong hr

/-- **An output is not filled from a seed that is missing** when the output has been opened: as soon
as a range is to be copied, the run fails with the reason for which nothing is found. -/
theorem ends_fill_of_missing (job : Job) (w : World) {client : Http.Client} {kind : IoKind}
    (hcheck : job.plan.check job.length = .ok ()) (hclient : job.client = .ok client)
    (hreuse : job.plan.reuse ≠ []) (hopened : runOn job.opening w = (.ok writer, w'))
    (hmissing : w'.disk.missing? job.seed = some kind) :
    job.fill.Ends w (fun _ _ => False)
      fun cause _ => ∃ reason, cause = .failed (.files reason) ∧
        (w'.disk.Refuses reason ∨ reason = kind) := by
  obtain ⟨origin, horigin⟩ : ∃ origin, job.origin? = .ok origin := by
    rw [origin?, hclient]
    split <;> exact ⟨_, rfl⟩
  rw [ends_fill_iff hcheck horigin, ends_of_ok hopened]
  refine (ends_shielded (ends_orAbandon
    (job.ends_copyReuse_of_missing (writer, w') hreuse hmissing))).mono (fun _ _ hno => hno.elim) ?_
  rintro cause w₂ ⟨cause', ⟨_, ⟨reason, rfl, hr⟩, _⟩, rfl⟩
  exact ⟨reason, rfl, hr⟩

end Job
end RangeSync
