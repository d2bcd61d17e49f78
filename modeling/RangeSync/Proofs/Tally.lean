import RangeSync.Proofs.Requests

/-!
# The tally of a download

While ranges are downloaded, somebody may be told how many of the bytes are there. That the numbers
are right is a matter of three loops at once: over the ranges, over the pieces of an answer and over
the portions of a piece. The total is known before the first of them starts, a server may send too
much or too little at any point, and what a failed run has told is still meant.

So the statement is not about the last number but about every number on the way. The benches that a
download goes through are charted, `RangeSync.Bench.Course`: what it does either leaves the output
and the count alone, or it is **one portion that is written and counted**, a mark of the course.
Cutting a course at a mark gives the course up to there (`RangeSync.Bench.Course.cut`), and whatever
holds at the end of a course therefore holds at each of its marks.

* `RangeSync.Bench.Course.isTally` – what the updates of a course say;
* `RangeSync.Bench.Course.counts` – the count at its end is the number of bytes that it has laid
  over the output;
* `RangeSync.Job.tells_what_is_written` – both for a whole run against any server.
-/

namespace RangeSync

open Act Disk Http

/-! ### What a sink is told -/

/-- The sink after it was told of some bytes; its log entries are taken at once. -/
def ProgressSink.told (sink : ProgressSink) (u : ProgressUpdate) : ProgressSink :=
  (sink.receive u).withoutEntries

/-- A recorder has the updates that it was told. -/
theorem ProgressSink.foldl_told_recorder (received updates : List ProgressUpdate) :
    updates.foldl told (.recorder received) = .recorder (received ++ updates) := by
  induction updates generalizing received with
  | nil => rw [List.append_nil, List.foldl_nil]
  | cons u rest ih =>
    rw [List.foldl_cons, ← List.singleton_append, ← List.append_assoc]
    exact ih (received ++ [u])

namespace Tracker

/-- What is told of so many bytes more. -/
def updateFor (t : Tracker) (count : Nat) : ProgressUpdate :=
  ⟨t.item, t.total, t.completed + UInt64.ofNat count, UInt64.ofNat count⟩

/-- The tracker when so many bytes more are counted and told. -/
def counted (t : Tracker) (count : Nat) : Tracker :=
  { t with
    completed := t.completed + UInt64.ofNat count
    sink := t.sink.told (t.updateFor count) }

end Tracker

/-- Bytes are counted and told, unless they are too many. -/
theorem World.ends_count_of_some {w : World} {t : Tracker} (h : w.progress = some t)
    (count : Nat) :
    (World.count count).Ends w
      (fun _ w' => w'.progress = some (t.counted count) ∧
        t.completed.toNat + (UInt64.ofNat count).toNat ≤ t.total.toNat)
      fun cause _ => cause = .crashed := by
  unfold World.count
  rw [ends_bind, ends_get, h]
  dsimp only
  unfold Tracker.advance
  by_cases hroom : t.completed.toNat + (UInt64.ofNat count).toNat ≤ t.total.toNat
  · rw [if_pos hroom]
    exact ⟨rfl, hroom⟩
  · rw [if_neg hroom]
    exact rfl

/-! ### Courses -/

/-- **A portion that was written and counted**: the bytes and where they went, what was told of
them, and the bench right after. -/
structure Mark where
  patch : Patch
  update : ProgressUpdate
  bench : Bench

/-- The number of bytes that were written. -/
def written (marks : List Mark) : Nat :=
  sumOf (marks.map (·.patch.2.length))

theorem written_concat (marks : List Mark) (mark : Mark) :
    written (marks ++ [mark]) = written marks + mark.patch.2.length := by
  rw [written, List.map_append, sumOf_append]
  rfl

/-- **The tracker has told its sink of the marks**, and counted their bytes. -/
structure Tracker.Tells (t : Tracker) (marks : List Mark) (t' : Tracker) : Prop where
  item : t'.item = t.item
  total : t'.total = t.total
  completed : t'.completed.toNat = t.completed.toNat + written marks
  sink : t'.sink = (marks.map (·.update)).foldl ProgressSink.told t.sink

namespace Bench

variable {b b₁ b' : Bench} {mark : Mark} {marks before after more : List Mark} {limit : Nat}
  {t : Tracker}

/-- **The bench goes on to a mark**: the bytes of its patch are written where the output is, and
counted. They are some, and no more than a portion. -/
structure Takes (limit : Nat) (b : Bench) (mark : Mark) : Prop where
  position : mark.patch.1 = b.1.position
  nonempty : 1 ≤ mark.patch.2.length
  limited : mark.patch.2.length ≤ limit
  runs : ∃ b₁, runOn (onWriter (Writer.write mark.patch.2)) b = (.ok (), b₁) ∧
    runOn (onWorld (World.count mark.patch.2.length)) b₁ = (.ok (), mark.bench)
  told : ∃ t, b.2.progress = some t ∧ mark.update = t.updateFor mark.patch.2.length

/-- **The course of a download** from one bench to another, with its marks. Between two marks the
bytes of the output and the count stay as they are. -/
inductive Course (limit : Nat) : Bench → List Mark → Bench → Prop
  | done (b : Bench) : Course limit b [] b
  | pause {b b₁ b' : Bench} {marks : List Mark} :
      HasAt b b.bytes b₁.1.position b₁ → b₁.2.progress = b.2.progress →
      Course limit b₁ marks b' → Course limit b marks b'
  | portion {b b' : Bench} {mark : Mark} {marks : List Mark} :
      b.Takes limit mark → Course limit mark.bench marks b' → Course limit b (mark :: marks) b'

theorem Course.append (h : Course limit b marks b₁) (h' : Course limit b₁ more b') :
    Course limit b (marks ++ more) b' := by
  induction h with
  | done => exact h'
  | pause hkeeps hsame _ ih => exact .pause hkeeps hsame (ih h')
  | portion htakes _ ih => exact .portion htakes (ih h')

/-- **A course can be cut at a mark**: it leads to the mark, and goes on from there. -/
theorem Course.cut (h : Course limit b (before ++ mark :: after) b') :
    ∃ b₁, Course limit b before b₁ ∧ b₁.Takes limit mark ∧ Course limit mark.bench after b' := by
  generalize hmarks : before ++ mark :: after = marks at h
  induction h generalizing before with
  | done => exact absurd hmarks (by simp)
  | pause hkeeps hsame _ ih =>
    obtain ⟨b₁, hbefore, htakes, hafter⟩ := ih hmarks
    exact ⟨b₁, .pause hkeeps hsame hbefore, htakes, hafter⟩
  | @portion b b' mark' marks htakes hrest ih =>
    rcases before with _ | ⟨first, before⟩
    · cases hmarks
      exact ⟨b, .done b, htakes, hrest⟩
    · obtain ⟨rfl, hlater⟩ := List.cons.inj hmarks
      obtain ⟨b₁, hbefore, htakes', hafter⟩ := ih hlater
      exact ⟨b₁, .portion htakes hbefore, htakes', hafter⟩

/-- The course up to a mark. -/
theorem Course.upto (h : Course limit b (before ++ mark :: after) b') :
    Course limit b (before ++ [mark]) mark.bench := by
  obtain ⟨b₁, hbefore, htakes, _⟩ := h.cut
  exact hbefore.append (.portion htakes (.done _))

/-! ### What a step of a course does -/

/-- The bytes of a portion are laid over the output. -/
theorem Takes.laid (h : b.Takes limit mark) (ho : b.IsOpen) (hlimit : limit < UInt64.size) :
    b.Laid [mark.patch] mark.bench := by
  obtain ⟨b₁, hwrite, hcount⟩ := h.runs
  obtain ⟨hwrote, _⟩ := (ends_write ho mark.patch.2).of_ok hwrite
  obtain ⟨hsame, _⟩ := (ends_count b₁ (Nat.lt_of_le_of_lt h.limited hlimit)).of_ok hcount
  obtain ⟨position, hat⟩ := hwrote.laid (HasAt.refl b)
  rw [← h.position] at hat
  refine ⟨b₁.1.position, hat.carries.hasAt ?_⟩
  rw [← hat.bytes]
  exact hsame

theorem ends_count_of_some (ht : b.2.progress = some t) (count : Nat) :
    (onWorld (World.count count)).Ends b
      (fun _ b' => b'.2.progress = some (t.counted count) ∧
        t.completed.toNat + (UInt64.ofNat count).toNat ≤ t.total.toNat)
      fun cause _ => cause = .crashed :=
  ends_onWorld.mpr (World.ends_count_of_some ht count)

/-- A portion is counted and told, and there was room for it. -/
theorem Takes.counted (h : b.Takes limit mark) (hlimit : limit < UInt64.size)
    (ht : b.2.progress = some t) :
    mark.update = t.updateFor mark.patch.2.length ∧
      mark.bench.2.progress = some (t.counted mark.patch.2.length) ∧
      (t.counted mark.patch.2.length).completed.toNat =
        t.completed.toNat + mark.patch.2.length ∧
      t.completed.toNat + mark.patch.2.length ≤ t.total.toNat := by
  obtain ⟨b₁, hwrite, hcount⟩ := h.runs
  obtain ⟨t', ht', hupdate⟩ := h.told
  obtain rfl := Option.some.inj (ht.symm.trans ht')
  have hsame := ((World.isBeside_progress.leaves_onWriter _).ends b).of_ok hwrite
  have htold := (ends_count_of_some (hsame.trans ht) _).of_ok hcount
  have hlen : (UInt64.ofNat mark.patch.2.length).toNat = mark.patch.2.length :=
    UInt64.toNat_ofNat_of_lt' (Nat.lt_of_le_of_lt h.limited hlimit)
  rw [hlen] at htold
  refine ⟨hupdate, htold.1, ?_, htold.2⟩
  have htotal := t.total.toNat_lt_size
  change (t.completed + UInt64.ofNat _).toNat = _
  rw [UInt64.toNat_add, hlen]
  exact Nat.mod_eq_of_lt (Nat.lt_of_le_of_lt htold.2 htotal)

/-! ### What a course does -/

theorem Course.laid (h : Course limit b marks b') (ho : b.IsOpen) (hlimit : limit < UInt64.size) :
    b.Laid (marks.map (·.patch)) b' := by
  induction h with
  | done b => exact .nil (.refl b)
  | pause hkeeps _ _ ih => exact (Laid.nil hkeeps).append (ih (hkeeps.carries.isOpen ho))
  | portion htakes _ ih =>
    have hlaid := htakes.laid ho hlimit
    exact hlaid.append (ih (hlaid.carries.isOpen ho))

theorem Course.tells (h : Course limit b marks b') (hlimit : limit < UInt64.size)
    (ht : b.2.progress = some t) : ∃ t', b'.2.progress = some t' ∧ t.Tells marks t' := by
  induction h generalizing t with
  | done b => exact ⟨t, ht, rfl, rfl, rfl, rfl⟩
  | pause _ hsame _ ih => exact ih (hsame.trans ht)
  | @portion b b' mark marks htakes _ ih =>
    obtain ⟨hupdate, htold, hcompleted, _⟩ := htakes.counted hlimit ht
    obtain ⟨t', ht', h⟩ := ih htold
    refine ⟨t', ht', h.item, h.total, ?_, ?_⟩
    · rw [h.completed, hcompleted, Nat.add_assoc]
      rfl
    · rw [h.sink, List.map_cons, List.foldl_cons, hupdate]
      rfl

theorem Course.isOpen (h : Course limit b marks b') (ho : b.IsOpen)
    (hlimit : limit < UInt64.size) : b'.IsOpen :=
  (h.laid ho hlimit).carries.isOpen ho

/-- **The count is the number of bytes that were laid** over the output. -/
def Counts (start : Bench) (marks : List Mark) (b : Bench) : Prop :=
  start.Laid (marks.map (·.patch)) b ∧
    ∃ t, b.2.progress = some t ∧ t.completed.toNat = written marks

/-- **At the end of a course the count is right**, if nothing was counted before. -/
theorem Course.counts (h : Course limit b marks b') (ho : b.IsOpen) (hlimit : limit < UInt64.size)
    (ht : b.2.progress = some t) (hzero : t.completed = 0) : b.Counts marks b' := by
  obtain ⟨t', ht', htells⟩ := h.tells hlimit ht
  refine ⟨h.laid ho hlimit, t', ht', ?_⟩
  rw [htells.completed, hzero]
  exact Nat.zero_add _

/-- What is told at a mark. -/
theorem Course.update (h : Course limit b (before ++ mark :: after) b')
    (hlimit : limit < UInt64.size) (ht : b.2.progress = some t) :
    mark.update.item = t.item ∧ mark.update.total = t.total ∧
      mark.update.increment.toNat = mark.patch.2.length ∧
      mark.update.completed.toNat = t.completed.toNat + written (before ++ [mark]) ∧
      mark.update.completed.toNat ≤ t.total.toNat := by
  obtain ⟨b₁, hbefore, htakes, _⟩ := h.cut
  obtain ⟨t₁, ht₁, htells⟩ := hbefore.tells hlimit ht
  obtain ⟨hupdate, _, hcompleted, hroom⟩ := htakes.counted hlimit ht₁
  rw [hupdate, written_concat, ← Nat.add_assoc, ← htells.completed, ← htells.item, ← htells.total]
  refine ⟨rfl, rfl, ?_, hcompleted, Nat.le_trans (Nat.le_of_eq hcompleted) hroom⟩
  exact UInt64.toNat_ofNat_of_lt' (Nat.lt_of_le_of_lt htakes.limited hlimit)

/-- What was written is what was told, portion by portion. -/
theorem Course.increments (h : Course limit b marks b') (hlimit : limit < UInt64.size)
    (ht : b.2.progress = some t) :
    marks.map (·.update.increment.toNat) = marks.map (·.patch.2.length) := by
  refine List.map_congr_left fun mark hmark => ?_
  obtain ⟨before, after, rfl⟩ := List.append_of_mem hmark
  exact (h.update hlimit ht).2.2.1

/-- **The number of bytes that are there grows** from mark to mark. -/
theorem Course.increasing (h : Course limit b marks b') (hlimit : limit < UInt64.size)
    (ht : b.2.progress = some t) :
    marks.Pairwise fun mark later => mark.update.completed < later.update.completed := by
  induction h generalizing t with
  | done b => exact .nil
  | pause _ hsame _ ih => exact ih (hsame.trans ht)
  | @portion b b' mark marks htakes hrest ih =>
    obtain ⟨hupdate, htold, _, _⟩ := htakes.counted hlimit ht
    refine List.pairwise_cons.mpr ⟨fun later hlater => ?_, ih htold⟩
    -- what is told later counts the bytes of its own portion as well
    obtain ⟨before, after, rfl⟩ := List.append_of_mem hlater
    obtain ⟨_, _, _, hcompleted, _⟩ := hrest.update hlimit htold
    obtain ⟨_, _, hlast, _⟩ := hrest.cut
    have hsome := hlast.nonempty
    rw [written_concat] at hcompleted
    rw [hupdate, UInt64.lt_iff_toNat_lt, hcompleted]
    change (t.counted mark.patch.2.length).completed.toNat < _
    omega

end Bench

/-- **The updates are a tally** of a download of so many bytes in portions of so many: each names the
total and how many bytes have come since the one before, the number of bytes that are there is the
sum of what has come, so it grows, and it never exceeds the total. -/
structure IsTally (item : String) (total limit : Nat) (updates : List ProgressUpdate) : Prop where
  about : ∀ u ∈ updates, u.item = item ∧ u.total.toNat = total
  increment : ∀ u ∈ updates, 1 ≤ u.increment.toNat ∧ u.increment.toNat ≤ limit
  running : ∀ before u after, updates = before ++ u :: after →
    u.completed.toNat = sumOf ((before ++ [u]).map (·.increment.toNat))
  increasing : updates.Pairwise fun u v => u.completed < v.completed
  bounded : ∀ u ∈ updates, u.completed.toNat ≤ total

namespace Bench

variable {b b₁ b' : Bench} {marks : List Mark} {limit : Nat} {t : Tracker}

/-- **What is told on a course is a tally**, if nothing was counted before. -/
theorem Course.isTally (h : Course limit b marks b') (hlimit : limit < UInt64.size)
    (ht : b.2.progress = some t) (hzero : t.completed = 0) :
    IsTally t.item t.total.toNat limit (marks.map (·.update)) := by
  constructor
  case about =>
    intro u hu
    obtain ⟨mark, hmark, rfl⟩ := List.mem_map.mp hu
    obtain ⟨before, after, rfl⟩ := List.append_of_mem hmark
    obtain ⟨hitem, htotal, _⟩ := h.update hlimit ht
    exact ⟨hitem, congrArg _ htotal⟩
  case increment =>
    intro u hu
    obtain ⟨mark, hmark, rfl⟩ := List.mem_map.mp hu
    obtain ⟨before, after, rfl⟩ := List.append_of_mem hmark
    obtain ⟨_, _, hincrement, _⟩ := h.update hlimit ht
    obtain ⟨_, _, htakes, _⟩ := h.cut
    rw [hincrement]
    exact ⟨htakes.nonempty, htakes.limited⟩
  case running =>
    intro updates u later hupdates
    obtain ⟨before, rest, rfl, rfl, hrest⟩ := List.map_eq_append_iff.mp hupdates
    obtain ⟨mark, after, rfl, rfl, _⟩ := List.map_eq_cons_iff.mp hrest
    obtain ⟨_, _, _, hcompleted, _⟩ := h.update hlimit ht
    have hmap : before.map (·.update) ++ [mark.update] = (before ++ [mark]).map (·.update) := by
      rw [List.map_append, List.map_singleton]
    rw [hmap, List.map_map, hcompleted, hzero, written, ← h.upto.increments hlimit ht]
    exact Nat.zero_add _
  case increasing => exact List.pairwise_map.mpr (h.increasing hlimit ht)
  case bounded =>
    intro u hu
    obtain ⟨mark, hmark, rfl⟩ := List.mem_map.mp hu
    obtain ⟨before, after, rfl⟩ := List.append_of_mem hmark
    exact (h.update hlimit ht).2.2.2.2

/-! ### Charts -/

/-- One bench is on a course from another. -/
def Charts (limit : Nat) (b b' : Bench) : Prop :=
  ∃ marks, Course limit b marks b'

/-- The output can be written, and somebody counts. -/
structure IsReady (b : Bench) : Prop where
  isOpen : b.IsOpen
  tracked : ∃ t, b.2.progress = some t

theorem Charts.refl (limit : Nat) (b : Bench) : b.Charts limit b :=
  ⟨[], .done b⟩

theorem Charts.trans (h : b.Charts limit b₁) (h' : b₁.Charts limit b') : b.Charts limit b' := by
  obtain ⟨_, h⟩ := h
  obtain ⟨_, h'⟩ := h'
  exact ⟨_, h.append h'⟩

/-- What leaves the bytes and the count alone is on the course. -/
theorem charts_of_hasAt {position : Nat} (h : HasAt b b.bytes position b₁)
    (hsame : b₁.2.progress = b.2.progress) : b.Charts limit b₁ := by
  obtain rfl := h.position
  exact ⟨[], .pause h hsame (.done b₁)⟩

theorem Charts.isReady (h : b.Charts limit b') (hlimit : limit < UInt64.size) (hr : b.IsReady) :
    b'.IsReady := by
  obtain ⟨marks, h⟩ := h
  obtain ⟨t, ht⟩ := hr.tracked
  obtain ⟨t', ht', _⟩ := h.tells hlimit ht
  exact ⟨h.isOpen hr.isOpen hlimit, t', ht'⟩

end Bench

namespace Origin

variable {b : Bench} {limit : Nat}

/-- **Portions are stored** mark by mark. -/
theorem ends_store_charts (b : Bench) (hr : b.IsReady) (hlimit : limit < UInt64.size)
    (pieces : List (List UInt8))
    (hpieces : ∀ piece ∈ pieces, 1 ≤ piece.length ∧ piece.length ≤ limit) :
    (store pieces).Ends b (fun _ b' => b.Charts limit b') fun cause b' =>
      cause ≠ .crashed → b.Charts limit b' := by
  induction pieces generalizing b with
  | nil => exact .refl limit b
  | cons piece rest ih =>
    obtain ⟨hpiece, hrest⟩ := List.forall_mem_cons.mp hpieces
    obtain ⟨t, ht⟩ := hr.tracked
    have hsame := World.isBeside_progress.leaves_onWriter (Writer.write piece)
    unfold store
    rw [ends_bind]
    refine (((Bench.ends_write hr.isOpen piece).and (hsame.ends b)).and (ends_self _ b)).mono ?_ ?_
    · rintro _ b₁ ⟨⟨_, hsame⟩, hwrite⟩
      rw [ends_bind]
      refine ((Bench.ends_count_of_some (hsame.trans ht) _).and (ends_self _ b₁)).mono ?_ ?_
      · rintro _ b₂ ⟨_, hcount⟩
        have htakes : b.Takes limit ⟨(b.1.position, piece), t.updateFor piece.length, b₂⟩ :=
          ⟨rfl, hpiece.1, hpiece.2, ⟨b₁, hwrite, hcount⟩, t, ht, rfl⟩
        have hcharts : b.Charts limit b₂ := ⟨_, .portion htakes (.done b₂)⟩
        exact (ih b₂ (hcharts.isReady hlimit hr) hrest).mono (fun _ _ h => hcharts.trans h)
          fun _ _ h hcause => hcharts.trans (h hcause)
      · rintro cause b₂ ⟨hcrashed, _⟩ hcause
        exact absurd hcrashed hcause
    · rintro cause b₁ ⟨⟨⟨hat, _⟩, hsame⟩, _⟩ _
      exact Bench.charts_of_hasAt hat hsame

theorem ends_take_charts (o : Origin) (r : DownloadRange) (target : UInt64) (answer : Response)
    (b : Bench) (hr : b.IsReady) (hlimit : o.portion < UInt64.size) :
    (o.take r target answer).Ends b (fun _ b' => b.Charts o.portion b') fun cause b' =>
      cause ≠ .crashed → b.Charts o.portion b' := by
  refine ends_take_cases (fun _ _ => .refl _ b) (fun _ hcause => absurd rfl hcause)
    fun n pieces _ _ _ _ hpieces => ?_
  exact (ends_store_charts b hr hlimit pieces hpieces).mono
    (fun _ _ h => ⟨fun _ => h, fun _ _ => h⟩) fun _ _ h => h

theorem ends_fetch_charts (o : Origin) (r : DownloadRange) (target : UInt64) (b : Bench)
    (hr : b.IsReady) (hlimit : o.portion < UInt64.size) :
    (o.fetch r target).Ends b (fun _ b' => b.Charts o.portion b') fun cause b' =>
      cause ≠ .crashed → b.Charts o.portion b' := by
  -- neither a request nor an entry in the log touches the output or the count
  have hpause {net : Net} (log : List Entry) (hserver : net.server = b.2.net.server) :
      b.Charts o.portion (b.1, { b.2 with net, log }) :=
    Bench.charts_of_hasAt (Bench.carries_of_disk b { b.2 with net, log } (Kept.refl _) hserver) rfl
  refine ends_fetch_cases (fun _ _ hserver _ _ => hpause b.2.log hserver)
    (fun _ _ hserver _ _ _ => hpause b.2.log hserver) fun answer net log hserver _ _ => ?_
  have h₁ := hpause log hserver
  exact (o.ends_take_charts r target answer _ (h₁.isReady hlimit hr) hlimit).mono
    (fun _ _ h => h₁.trans h) fun _ _ h hcause => h₁.trans (h hcause)

end Origin

namespace Job

variable {job : Job} {w w' : World} {first last : Bench}

/-- **Downloading stays on a course**, whatever the server answers and however it ends. -/
theorem ends_downloadRanges_charts (job : Job) (o : Origin) (b : Bench) (hr : b.IsReady)
    (hlimit : o.portion < UInt64.size) (total : UInt64) (ranges : List DownloadRange) :
    (job.downloadRanges o total ranges).Ends b (fun _ b' => b.Charts o.portion b') fun cause b' =>
      cause ≠ .crashed → b.Charts o.portion b' := by
  induction ranges generalizing b total with
  | nil => exact .refl _ b
  | cons r rest ih =>
    have hsame := World.isBeside_progress.leaves_onWriter (Writer.seekTo r.first.toNat)
    unfold downloadRanges
    rw [ends_bind]
    refine ((Bench.ends_seekTo b r.first.toNat).and (hsame.ends b)).mono ?_ ?_
    · rintro _ b₁ ⟨⟨hat, _⟩, hsame⟩
      have h₁ : b.Charts o.portion b₁ := Bench.charts_of_hasAt hat hsame
      rw [ends_bind]
      refine (o.ends_fetch_charts r job.length b₁ (h₁.isReady hlimit hr) hlimit).mono ?_
        fun _ _ h hcause => h₁.trans (h hcause)
      intro n b₂ h₂
      rw [ends_bind, ends_orCrash]
      split
      · have h := h₁.trans h₂
        exact (ih b₂ (h.isReady hlimit hr) _).mono (fun _ _ h' => h.trans h')
          fun _ _ h' hcause => h.trans (h' hcause)
      · exact fun hcause => absurd rfl hcause
    · rintro cause b₁ ⟨⟨hat, _⟩, hsame⟩ _
      exact Bench.charts_of_hasAt hat hsame

/-- **The download of a run**, from where its bytes are announced to where the last range was asked
for. -/
def Downloads (job : Job) (w : World) (first last : Bench) : Prop :=
  ∃ client b total result, job.StartsAt w client b ∧ job.plan.downloadTotal? = some total ∧
    first = (b.1, { b.2 with progress := b.2.progress.map (·.announce total) }) ∧
    runOn (job.downloadRanges (job.originWith client) 0 job.plan.download) first = (result, last)

/-- A download starts with an output that can be written, and with its bytes announced. -/
theorem Downloads.opens (h : job.Downloads w first last) :
    first.IsOpen ∧ ∃ total : UInt64, total.toNat = job.plan.downloaded ∧
      first.2.progress = w.progress.map (·.announce total) := by
  obtain ⟨client, b, total, result, hstarts, htotal, rfl, _⟩ := h
  refine ⟨hstarts.ready.1, total, toNat_downloadTotal? htotal, ?_⟩
  dsimp only
  rw [hstarts.part World.isBeside_progress]

/-- The portions in which a job downloads. -/
def portion (job : Job) : Nat :=
  max 1 job.settings.downloadChunkSize.count.toNat

/-- **The count is that of a download** of the run. -/
def Charts (job : Job) (w : World) (progress : Option Tracker) : Prop :=
  ∃ first last, job.Downloads w first last ∧ first.Charts job.portion last ∧
    progress = last.2.progress

/-- **Downloading everything** counts along, up to the total if it succeeds. -/
theorem ends_downloadAll_charts {client : Client} {b : Bench} (h : job.StartsAt w client b)
    (hr : b.IsReady) (hportion : job.portion < UInt64.size) :
    (job.downloadAll (some (job.originWith client))).Ends b
      (fun _ b' => job.Charts w b'.2.progress ∧
        ∀ t, b'.2.progress = some t → t.isComplete = true)
      fun cause b' => cause ≠ .crashed → job.Charts w b'.2.progress := by
  refine ends_downloadAll_cases (fun _ hcause => absurd rfl hcause) fun total htotal => ?_
  have hfirst : Bench.IsReady (b.1, { b.2 with progress := b.2.progress.map (·.announce total) }) := by
    obtain ⟨t, ht⟩ := hr.tracked
    exact ⟨hr.isOpen, t.announce total, by rw [ht]; rfl⟩
  refine ((job.ends_downloadRanges_charts (job.originWith client) _ hfirst hportion 0
    job.plan.download).and (ends_self _ _)).mono ?_ ?_
  · rintro n last ⟨hcharts, hrun⟩
    have hcount : job.Charts w last.2.progress :=
      ⟨_, last, ⟨client, b, total, _, h, htotal, rfl, hrun⟩, hcharts, rfl⟩
    exact ⟨fun hall => ⟨hcount, hall⟩, fun _ _ _ hcause => absurd rfl hcause⟩
  · rintro cause last ⟨hcharts, hrun⟩ hcause
    exact ⟨_, last, ⟨client, b, total, _, h, htotal, rfl, hrun⟩, hcharts hcause, rfl⟩

/-- **Filling an output** leaves the count alone until the download begins, and counts all of it if
it succeeds. -/
theorem ends_fill_charts (job : Job) (w : World) {t : Tracker} (ht : w.progress = some t)
    (hportion : job.portion < UInt64.size) :
    job.fill.Ends w
      (fun _ w' => (¬ job.Begins w ∧ job.plan.download = [] ∧ w'.progress = w.progress) ∨
        job.Begins w ∧ job.Charts w w'.progress ∧
          ∀ t, w'.progress = some t → t.isComplete = true)
      fun cause w' => (¬ job.Begins w ∧ w'.progress = w.progress) ∨
        job.Begins w ∧ (cause ≠ .crashed → job.Charts w w'.progress) := by
  refine ends_fill_of_download World.isBeside_progress
    (fun p => job.Charts w p ∧ ∀ t, p = some t → t.isComplete = true)
    (fun cause p => cause ≠ .crashed → job.Charts w p) fun client b hstarts => ?_
  have hsame := hstarts.part World.isBeside_progress
  exact ends_downloadAll_charts hstarts ⟨hstarts.ready.1, t, hsame.trans ht⟩ hportion

/-! ### Whole runs -/

/-- **The tracker has told of the run's download**, from the first portion to the last one that was
written. What it has told is a tally of the bytes of the plan; at each mark, and at the end, the
count is the number of bytes that are in the output by then. -/
def Tells (job : Job) (w : World) (item : String) (sink : ProgressSink) (t : Tracker) : Prop :=
  ∃ first marks last, job.Downloads w first last ∧ first.Course job.portion marks last ∧
    IsTally item job.plan.downloaded job.portion (marks.map (·.update)) ∧
    (∀ before mark after, marks = before ++ mark :: after →
      first.Counts (before ++ [mark]) mark.bench) ∧
    first.Counts marks last ∧
    t.item = item ∧ t.total.toNat = job.plan.downloaded ∧ t.completed.toNat = written marks ∧
    t.sink = (marks.map (·.update)).foldl ProgressSink.told sink

variable {item : String} {sink : ProgressSink}

/-- The count of a download is told, if nothing was counted before. -/
theorem Charts.tells {p : Option Tracker} (h : job.Charts w p)
    (hfresh : w.progress = some (.fresh item sink)) (hportion : job.portion < UInt64.size) :
    ∃ t, p = some t ∧ job.Tells w item sink t := by
  obtain ⟨first, last, hdownloads, ⟨marks, hcourse⟩, rfl⟩ := h
  obtain ⟨ho, total, htotal, hannounced⟩ := hdownloads.opens
  have ht : first.2.progress = some ((Tracker.fresh item sink).announce total) := by
    rw [hannounced, hfresh]
    rfl
  obtain ⟨t, hlast, htells⟩ := hcourse.tells hportion ht
  have htally := hcourse.isTally hportion ht rfl
  refine ⟨t, hlast, first, marks, last, hdownloads, hcourse, htotal ▸ htally, ?_,
    hcourse.counts ho hportion ht rfl, htells.item, ?_, ?_, htells.sink⟩
  · rintro before mark after rfl
    exact hcourse.upto.counts ho hportion ht rfl
  · rw [htells.total]
    exact htotal
  · rw [htells.completed]
    exact Nat.zero_add _

/-- **The numbers that a run tells are right**, whatever the server answers and however the run ends.
If the lengths of the downloads have a sum and a portion has room, no check fails, and a run that
starts with nothing counted tells of every portion as soon as it is written: of the total, of the
bytes of the portion, and of the bytes that are there with it, which are the ones that are in the
output. At the end these are all bytes if the run succeeds; and a run that has nothing to download, or
does not get as far, has told nothing. -/
theorem tells_what_is_written (job : Job) (w : World) (item : String) (sink : ProgressSink)
    (hfresh : w.progress = some (.fresh item sink)) (hsum : job.plan.downloaded < UInt64.size)
    (hmin : 1 ≤ job.settings.downloadChunkSize.count.toNat)
    (hmax : job.settings.downloadChunkSize.count.toNat < Origin.roomLimit) :
    job.portion = job.settings.downloadChunkSize.count.toNat ∧
      (runOn job.run w).1 ≠ .error .crashed ∧
      ∃ t, (runOn job.run w).2.progress = some t ∧
        (job.Begins w → job.Tells w item sink t) ∧
        (¬ job.Begins w → t = .fresh item sink) ∧
        (job.plan.download = [] → t = .fresh item sink) ∧
        ∀ summary, (runOn job.run w).1 = .ok summary →
          t.completed.toNat = job.plan.downloaded ∧ t.isComplete = true := by
  have hportion : job.portion = job.settings.downloadChunkSize.count.toNat := Nat.max_eq_right hmin
  have hlimit : job.portion < UInt64.size := by
    rw [hportion]
    exact UInt64.toNat_lt_size _
  -- no check fails, because every range of a plan for a target has a length
  have hsteady (hfor : job.plan.IsFor job.length) : job.IsSteady w.progress := by
    refine ⟨fun r hr => DownloadRange.length?_ne_none_of_lt (hfor.download r hr).2, hsum, hmax, ?_⟩
    intro t ht
    cases hfresh.symm.trans ht
    rfl
  have hcrash : (runOn job.run w).1 ≠ .error .crashed := by
    intro hresult
    obtain ⟨hfor, hno⟩ := (job.ends_run_steady w).of_error (Prod.ext hresult rfl) rfl
    exact hno (hsteady hfor)
  refine ⟨hportion, hcrash, ?_⟩
  have hbegins (hnil : job.plan.download = []) : ¬ job.Begins w := fun h => h.missing hnil
  rcases hfill : runOn job.fill w with ⟨cause | filled, w₁⟩
  · rw [runOn_run_of_unfilled hfill] at hcrash ⊢
    have hne : cause ≠ .crashed := fun h => hcrash (congrArg _ h)
    rcases (job.ends_fill_charts w hfresh hlimit).of_error hfill with
      ⟨hno, hsame⟩ | ⟨h, hcharts⟩
    · exact ⟨_, hsame.trans hfresh, fun h => absurd h hno, fun _ => rfl, fun _ => rfl, nofun⟩
    · obtain ⟨t, ht, htells⟩ := (hcharts hne).tells hfresh hlimit
      exact ⟨t, ht, fun _ => htells, fun hno => absurd h hno, fun hnil => absurd h (hbegins hnil),
        nofun⟩
  · -- closing the output counts nothing
    have hsame : (runOn job.run w).2.progress = w₁.progress := by
      rw [runOn_run_closing hfill]
      exact World.isBeside_progress.leaves_close job filled w₁
    rw [hsame]
    rcases (job.ends_fill_charts w hfresh hlimit).of_ok hfill with
      ⟨hno, hnil, hsame⟩ | ⟨h, hcharts, hall⟩
    · refine ⟨_, hsame.trans hfresh, fun h => absurd h hno, fun _ => rfl, fun _ => rfl, fun _ _ => ?_⟩
      rw [Plan.downloaded, hnil]
      exact ⟨rfl, rfl⟩
    · obtain ⟨t, ht, htells⟩ := hcharts.tells hfresh hlimit
      refine ⟨t, ht, fun _ => htells, fun hno => absurd h hno, fun hnil => absurd h (hbegins hnil),
        fun _ _ => ⟨?_, hall t ht⟩⟩
      have hend : t.completed = t.total := beq_iff_eq.mp (hall t ht)
      obtain ⟨_, _, _, _, _, _, _, _, _, htotal, _⟩ := htells
      rw [hend, htotal]

/-- A world in which a server answers once, and the updates are recorded. -/
def recorded : World :=
  { answered with progress := some (.fresh "file" (.recorder [])) }

/-- A run that gets one byte of four tells of this byte, and it is in the output. -/
theorem tells_what_is_written_missing :
    ∃ first marks last, missing.Downloads recorded first last ∧ first.Counts marks last ∧
      marks.map (·.update) = [⟨"file", 4, 1, 1⟩] ∧ written marks = 1 := by
  have hrun : (runOn missing.run recorded).2.progress =
      some ⟨"file", 4, 1, .recorder [⟨"file", 4, 1, 1⟩]⟩ := by decide +kernel
  obtain ⟨_, _, t, ht, hbegun, hidle, _⟩ := tells_what_is_written missing recorded "file"
    (.recorder []) rfl (by decide) (by decide) (by decide)
  obtain rfl := Option.some.inj (hrun.symm.trans ht)
  have hbegins : missing.Begins recorded := Classical.byContradiction fun hno =>
    nomatch hidle hno
  obtain ⟨first, marks, last, hdownloads, _, _, _, hcounts, _, _, hcompleted, hsink⟩ :=
    hbegun hbegins
  rw [ProgressSink.foldl_told_recorder] at hsink
  exact ⟨first, marks, last, hdownloads, hcounts, (ProgressSink.recorder.inj hsink).symm,
    hcompleted.symm⟩

end Job
end RangeSync
