import RangeSync.Proofs.RoundTrip
import RangeSync.Proofs.Success

/-!
# The order of ranges

A plan is a list of ranges to be copied and a list of ranges to be downloaded, and a run goes
through them in order, with one position in one output. Where ranges overlap the order matters: the
last one wins. Where they do not, it should not matter, but three things stand between the order of
the plan and what comes out.

* The ranges are laid over the output one after the other. If they are apart, then so are the
  patches, and `RangeSync.Disk.patched_perm` says that these may be laid in any order.
* The server has a history. One that answers as it likes could give the second of two requests less
  than the first one, whichever they are; so it has to be one that does not look back
  (`RangeSync.Http.Server.IsMemoryless`).
* The first range that cannot be copied or is not delivered ends the run, so the two runs may fail
  in different ways and after different work. Whether they fail is a question about all of the
  ranges together, though, and that is how `RangeSync.Job.Gathers` puts it.

**Two orders of a plan cannot be told apart** (`RangeSync.Job.order_is_irrelevant`): both runs
succeed or both fail, and if they succeed then they report the same and leave the same bytes.
-/

namespace RangeSync

open Act Disk

/-! ### Servers that do not look back -/

namespace Http

/-- **What the server replies to a request for a range depends on this request alone**, and not on
the ones before it. -/
def Server.IsMemoryless (server : Server) : Prop :=
  ∀ served served' request, request.range ≠ none →
    server served request = server served' request

/-- Nets with one server, which does not look back. -/
def Net.Peers (net net' : Net) : Prop :=
  net.server.IsMemoryless ∧ net.server = net'.server

theorem respects_ask {ε : Type} {request : Request} (h : request.range ≠ none) :
    (Net.ask request : Act Net ε Reply).Respects Net.Peers := by
  rintro net net' ⟨hmemoryless, hserver⟩
  have hreply : net'.server net'.served request = net.server net.served request := by
    rw [← hserver]
    exact hmemoryless _ _ _ h
  rw [Alike, Net.ask, runOn_bind, runOn_bind, runOn_get, runOn_get]
  dsimp only
  rw [hreply]
  rcases net.server net.served request <;> exact ⟨rfl, hmemoryless, hserver⟩

/-- The redirects that are followed are the same ones. -/
theorem respects_follow (c : Client) (range : String) (left : Nat) (url : Url) :
    (c.follow (some range) left url).Respects Net.Peers := by
  have hrange (url : Url) : (c.request url (some range)).range ≠ none := Option.some_ne_none range
  induction left using Nat.strongRecOn generalizing url with
  | ind left ih =>
    unfold Client.follow
    refine respects_when (respects_throw _) fun _ =>
      respects_bind (respects_ask (hrange url)) fun reply => ?_
    split
    · exact respects_throw _
    · exact respects_throw _
    · split
      · exact respects_pure _
      · split
        · exact respects_throw _
        · rename_i left
          exact ih left (Nat.lt_succ_self left) _

end Http

namespace Origin

variable {o : Origin} {net net' : Http.Net} {ranges ranges' : List DownloadRange}
  {patches : List Patch}

/-- A server that does not look back replies the same to the request for a range at any time. -/
theorem reply_congr (h : net.Peers net') (r : DownloadRange) : o.reply r net = o.reply r net' :=
  (Http.respects_follow _ _ _ _ net net' h).1

/-- **A server that does not look back delivers ranges exactly if it would deliver each of them
alone.** -/
theorem deliveries?_eq_some_iff (h : net.server.IsMemoryless) :
    o.deliveries? net ranges = some patches ↔
      (∀ r ∈ ranges, ∃ answer, o.reply r net = .ok answer ∧ answer.Serves r) ∧
        patches = ranges.map fun r => (r.first.toNat, landed r (o.reply r net)) := by
  -- the history grows from range to range, but the server is the same one
  suffices ∀ net', net.Peers net' → (o.deliveries? net' ranges = some patches ↔
      (∀ r ∈ ranges, ∃ answer, o.reply r net = .ok answer ∧ answer.Serves r) ∧
        patches = ranges.map fun r => (r.first.toNat, landed r (o.reply r net))) from
    this net ⟨h, rfl⟩
  induction ranges generalizing patches with
  | nil =>
    intro net' _
    rw [deliveries?, List.map_nil, Option.some_inj]
    exact ⟨fun heq => ⟨List.forall_mem_nil _, heq.symm⟩, fun hboth => hboth.2.symm⟩
  | cons r rest ih =>
    intro net' hpeers
    have hreply := reply_congr (o := o) hpeers r
    have hnext : net.Peers (runOn (o.client.fetch o.url (some r.header)) net').2 :=
      ⟨h, hpeers.2.trans ((Http.ends_follow_server o.client (some r.header) Http.redirectLimit
        o.url.withoutUser net').state (P := fun net : Http.Net => net.server = net'.server)).symm⟩
    rw [deliveries?_cons, List.forall_mem_cons, List.map_cons]
    constructor
    · rintro ⟨answer, net'', patches', hrun, hserves, hrest, rfl⟩
      rw [hrun] at hnext
      have hgot : o.reply r net = .ok answer := hreply.trans (congrArg Prod.fst hrun)
      obtain ⟨hall, rfl⟩ := (ih net'' hnext).mp hrest
      rw [hgot, landed_of_serves hserves]
      exact ⟨⟨⟨answer, rfl, hserves⟩, hall⟩, rfl⟩
    · rintro ⟨⟨⟨answer, hgot, hserves⟩, hall⟩, rfl⟩
      rw [hgot, landed_of_serves hserves]
      exact ⟨answer, _, _, Prod.ext (hreply.symm.trans hgot) rfl, hserves,
        (ih _ hnext).mpr ⟨hall, rfl⟩, rfl⟩

/-- Ranges are delivered in any order, if they are in one. -/
theorem exists_deliveries_of_perm (h : net.server.IsMemoryless) (hperm : ranges.Perm ranges')
    (hdelivers : o.deliveries? net ranges = some patches) :
    ∃ patches', o.deliveries? net ranges' = some patches' ∧ patches.Perm patches' := by
  obtain ⟨hall, rfl⟩ := (deliveries?_eq_some_iff h).mp hdelivers
  exact ⟨_, (deliveries?_eq_some_iff h).mpr ⟨fun r hr => hall r (hperm.mem_iff.mpr hr), rfl⟩,
    hperm.map _⟩

end Origin

/-! ### Plans in another order -/

theorem sumOf_perm {lengths lengths' : List Nat} (h : lengths.Perm lengths') :
    sumOf lengths = sumOf lengths' := by
  induction h with
  | nil => rfl
  | cons n _ ih => rw [sumOf_cons, sumOf_cons, ih]
  | swap n m rest =>
    simp only [sumOf_cons]
    omega
  | trans _ _ ih ih' => exact ih.trans ih'

/-- No offset is in both of the spans. -/
def Extent.IsApart (span span' : Extent) : Prop :=
  ∀ i, span.1 ≤ i ∧ i < span.1 + span.2 → ¬ (span'.1 ≤ i ∧ i < span'.1 + span'.2)

/-- Spans of which one ends before the other one begins are apart. -/
theorem Extent.isApart_of_le {span span' : Extent}
    (h : span.1 + span.2 ≤ span'.1 ∨ span'.1 + span'.2 ≤ span.1) : span.IsApart span' := by
  rintro i ⟨_, _⟩ ⟨_, _⟩
  omega

namespace Plan

variable {p p' : Plan} {target : UInt64}

/-- **No offset of the target is in two ranges**, whether they are copied or downloaded. -/
def IsDisjoint (p : Plan) : Prop :=
  p.spans.Pairwise Extent.IsApart

/-- **The plans have the same ranges**, those that are copied in any order and those that are
downloaded in any order. -/
structure Reorders (p p' : Plan) : Prop where
  length : p.length = p'.length
  reuse : p.reuse.Perm p'.reuse
  download : p.download.Perm p'.download

namespace Reorders

theorem symm (h : p.Reorders p') : p'.Reorders p :=
  ⟨h.length.symm, h.reuse.symm, h.download.symm⟩

theorem reused_eq (h : p.Reorders p') : p.reused = p'.reused :=
  sumOf_perm (h.reuse.map _)

theorem downloaded_eq (h : p.Reorders p') : p.downloaded = p'.downloaded :=
  sumOf_perm (h.download.map _)

theorem spans_perm (h : p.Reorders p') : p.spans.Perm p'.spans :=
  (h.reuse.map _).append (h.download.map _)

theorem isDisjoint (h : p.Reorders p') (hd : p.IsDisjoint) : p'.IsDisjoint :=
  h.spans_perm.pairwise hd fun hapart i hin hin' => hapart i hin' hin

theorem isFor (h : p.Reorders p') (hfor : p.IsFor target) : p'.IsFor target :=
  ⟨h.length ▸ hfor.length, fun r hr => hfor.reuse r (h.reuse.mem_iff.mpr hr),
    fun d hd => hfor.download d (h.download.mem_iff.mpr hd)⟩

end Reorders
end Plan

namespace Job

variable {job : Job} {p : Plan} {w : World} {patches : List Patch}

/-- What can be copied can be copied in any order. -/
theorem CanReuse.reordered {d : Disk} (h : job.CanReuse d) (hreorders : job.plan.Reorders p) :
    { job with plan := p }.CanReuse d := by
  refine ⟨fun hne => h.found fun hnil => hne ?_, fun r hr => ?_, ?_⟩
  · exact (hnil ▸ hreorders.reuse).nil_eq.symm
  · exact h.readable r (hreorders.reuse.mem_iff.mpr hr)
  · exact hreorders.reused_eq ▸ h.total

/-- What is received is received in any order. -/
theorem Receives.reordered (h : job.Receives w patches) (hreorders : job.plan.Reorders p)
    (hmemoryless : w.net.server.IsMemoryless) :
    ∃ patches', { job with plan := p }.Receives w patches' ∧ patches.Perm patches' := by
  obtain ⟨hsteady, hdelivers⟩ := h
  have hempty : p.download = [] ↔ job.plan.download = [] := by
    rw [← List.length_eq_zero_iff, ← List.length_eq_zero_iff, hreorders.download.length_eq]
  have hsteady' (hne : p.download ≠ []) : { job with plan := p }.IsSteady w.progress := by
    obtain ⟨hlengths, htotal, hportion, hfresh⟩ := hsteady (mt hempty.mpr hne)
    exact ⟨fun r hr => hlengths r (hreorders.download.mem_iff.mpr hr),
      hreorders.downloaded_eq ▸ htotal, hportion, hfresh⟩
  have horigin : { job with plan := p }.origin? = job.origin? := by
    rw [origin?, origin?]
    simp only [List.isEmpty_iff, hempty]
  unfold Receives
  rw [deliveries?, horigin]
  rw [deliveries?] at hdelivers
  split at hdelivers
  · cases hdelivers
  · cases hdelivers
    exact ⟨[], ⟨hsteady', rfl⟩, .refl _⟩
  · obtain ⟨patches', hdelivers', hperm⟩ :=
      Origin.exists_deliveries_of_perm hmemoryless hreorders.download hdelivers
    exact ⟨patches', ⟨hsteady', hdelivers'⟩, hperm⟩

/-- **What can be gathered can be gathered in any order**, and it is the same up to that order. -/
theorem Gathers.reordered (h : job.Gathers w patches) (hreorders : job.plan.Reorders p)
    (hmemoryless : w.net.server.IsMemoryless) :
    ∃ patches', { job with plan := p }.Gathers w patches' ∧ patches.Perm patches' := by
  obtain ⟨delivered, hreceives, rfl⟩ := h.parts
  obtain ⟨delivered', hreceives', hperm⟩ := hreceives.reordered hreorders hmemoryless
  exact ⟨_, ⟨hreorders.isFor h.isFor, h.reuse.reordered hreorders, delivered', hreceives', rfl⟩,
    (hreorders.reuse.map _).append hperm⟩

/-- **Patches that are gathered for a plan whose ranges are apart make the same in any order.** -/
theorem Gathers.patched_perm {patches' : List Patch} (h : job.Gathers w patches)
    (hdisjoint : job.plan.IsDisjoint) (hperm : patches.Perm patches') :
    patched (List.replicate job.length.toNat 0) patches =
      patched (List.replicate job.length.toNat 0) patches' := by
  have hsource (r : ReuseRange) (hr : r ∈ job.plan.reuse) : r.IsIn (job.seedBytes w.disk) :=
    (h.reuse.readable r hr).isIn
  obtain ⟨delivered, ⟨_, hdelivers⟩, rfl⟩ := h.parts
  refine Disk.patched_perm hperm ?_ ?_
  · rw [List.length_replicate]
    exact fits_of_isIn h.isFor hsource hdelivers
  · have hspans := map_span_of_isIn hsource hdelivers
    rw [Plan.IsDisjoint, ← hspans, List.pairwise_map] at hdisjoint
    exact hdisjoint

/-- **The order of ranges that are apart is irrelevant.** On a disk that does what it is told, and
with a server that does not look back, a run of a plan whose ranges are apart and a run of the same
ranges in another order both succeed or both fail. If they succeed, they report the same and leave
the same bytes in the same place. -/
theorem order_is_irrelevant (job : Job) {p : Plan} (w : World)
    (hreorders : job.plan.Reorders p) (hdisjoint : job.plan.IsDisjoint)
    (hobliging : w.disk.IsObliging) (hmemoryless : w.net.server.IsMemoryless) :
    job.run.Ends w
      (fun summary w₁ => ∃ w₂ bytes,
        runOn { job with plan := p }.run w = (.ok summary, w₂) ∧
        job.Installs w.disk bytes w₁.disk ∧ job.Installs w.disk bytes w₂.disk)
      fun _ _ => ∃ cause w₂, runOn { job with plan := p }.run w = (.error cause, w₂) := by
  rcases hopened : runOn job.opening w with ⟨cause | writer, w'⟩
  · -- the output is opened in the same way, whatever is to be put into it
    refine (job.ends_run_of_unopened hopened).mono (fun _ _ hno => hno.elim) fun _ _ _ => ?_
    obtain ⟨cause', w₂, hrun, _⟩ :=
      (ends_run_of_unopened { job with plan := p } hopened).exists_error
    exact ⟨cause', w₂, hrun⟩
  have hserver : w'.net.server.IsMemoryless := by
    rw [((job.ends_opening w).of_ok hopened).net]
    exact hmemoryless
  have hother := ends_run_exactly { job with plan := p } hobliging hopened
  refine (job.ends_run_exactly hobliging hopened).mono ?_ ?_
  · rintro _ w₁ ⟨rfl, patches, hg, hcan, hinstalls⟩
    obtain ⟨patches', hg', hperm⟩ := hg.reordered hreorders hserver
    have hsame := hg.patched_perm hdisjoint hperm
    have hreport : { job with plan := p }.report = job.report := by
      simp only [report, hreorders.reused_eq, hreorders.downloaded_eq,
        hreorders.download.length_eq]
      rfl
    rcases hrun : runOn { job with plan := p }.run w with ⟨cause | summary, w₂⟩
    · rw [hsame] at hcan
      exact absurd ⟨hcan.supplant, hcan.digest⟩ (hother.of_error hrun patches' hg')
    · obtain ⟨hsummary, patches₂, hg₂, _, hinstalls₂⟩ := hother.of_ok hrun
      rw [hg₂.unique hg', ← hsame] at hinstalls₂
      refine ⟨w₂, _, ?_, hinstalls, hinstalls₂⟩
      rw [hrun, hsummary, hreport]
  · intro _ _ hno
    rcases hrun : runOn { job with plan := p }.run w with ⟨cause | summary, w₂⟩
    · exact ⟨cause, w₂, hrun⟩
    · obtain ⟨_, patches', hg', hcan, _⟩ := hother.of_ok hrun
      obtain ⟨patches, hg, hperm⟩ := hg'.reordered hreorders.symm hserver
      have hsame := hg'.patched_perm (hreorders.isDisjoint hdisjoint) hperm
      rw [hsame] at hcan
      exact absurd ⟨hcan.supplant, hcan.digest⟩ (hno patches hg)

/-- A job for four bytes in the place of the seed, with a plan of its own. -/
def exchanging (p : Plan) : Job :=
  { copying 4 [] with plan := p }

/-- Two bytes of the seed change sides, and the two between them are downloaded; whether from left
to right or from right to left, both runs succeed. -/
theorem order_is_irrelevant_exchanging :
    ∃ summary w₁ w₂ bytes,
      runOn (exchanging ⟨none, [⟨0, 1, 1⟩, ⟨3, 0, 1⟩], [⟨1, 1⟩, ⟨2, 2⟩]⟩).run .withThreeBytes =
        (.ok summary, w₁) ∧
      runOn (exchanging ⟨none, [⟨3, 0, 1⟩, ⟨0, 1, 1⟩], [⟨2, 2⟩, ⟨1, 1⟩]⟩).run .withThreeBytes =
        (.ok summary, w₂) ∧
      w₁.disk.tree.bytes? ["seed"] = some bytes ∧ w₂.disk.tree.bytes? ["seed"] = some bytes := by
  let job := exchanging ⟨none, [⟨0, 1, 1⟩, ⟨3, 0, 1⟩], [⟨1, 1⟩, ⟨2, 2⟩]⟩
  have hobliging : World.withThreeBytes.disk.IsObliging := isObliging_ofTree _ _
  have hseed : World.withThreeBytes.disk.FileAt "seed" ["seed"] [97, 98, 99] :=
    fileAt_of_name (by decide) (by decide) (by decide) rfl
  have hwalk : World.withThreeBytes.disk.tree.walk [] false "seed" =
      .ok (.taken ["seed"] (.file [97, 98, 99] defaultMode none)) :=
    Tree.walk_of_name (by decide) (by decide) (by decide) rfl
  have hdelivers : job.deliveries? World.withThreeBytes.net =
      some [(1, [100]), (2, [101])] := by decide +kernel
  -- the first order can be run
  have hcan : job.CanRun .withThreeBytes ["seed"] [97, 98, 99] [(1, [100]), (2, [101])] := by
    refine ⟨⟨rfl, hobliging, ⟨by decide, nofun⟩, fun _ => hseed,
      isApartFrom_of_replaceSeed rfl _ _, ?_, by decide, by decide,
      ⟨by decide, by decide, by decide, nofun⟩, hdelivers⟩, fun _ => ?_, nofun⟩
    · unfold ReuseRange.IsIn
      decide
    · obtain ⟨mode, time, hw⟩ := hseed
      exact Writer.canSupplant_of_walk hw trivial
  obtain ⟨summary, w₁, hrun, _⟩ := ((job.ends_run_of_staged .withThreeBytes rfl).mono
    (fun _ _ h => h) fun _ _ h => h.2 _ _ _ hcan).exists_ok
  have hdisjoint : job.plan.IsDisjoint :=
    List.Pairwise.imp Extent.isApart_of_le (by decide)
  have hends := order_is_irrelevant job (p := ⟨none, [⟨3, 0, 1⟩, ⟨0, 1, 1⟩], [⟨2, 2⟩, ⟨1, 1⟩]⟩)
    .withThreeBytes ⟨rfl, .swap _ _ _, .swap _ _ _⟩ hdisjoint hobliging fun _ _ _ _ => rfl
  obtain ⟨w₂, bytes, hrun₂, hinstalls, hinstalls₂⟩ := hends.of_ok hrun
  have hbytes {d : Disk} (h : job.Installs World.withThreeBytes.disk bytes d) :
      d.tree.bytes? ["seed"] = some bytes := by
    obtain ⟨s, mode, time, hw, hget, _⟩ := h
    cases hwalk.symm.trans hw
    exact Tree.bytes?_eq hget
  exact ⟨summary, w₁, w₂, bytes, hrun, hrun₂, hbytes hinstalls, hbytes hinstalls₂⟩

end Job
end RangeSync
