import RangeSync.Proofs.Reach

/-!
# What fetching a range comes to

One request is sent for a range, and what becomes of the reply is decided by three things: whether
there is one, what status it has, and which bytes arrive. `RangeSync.Origin.verdict` says how the
fetch ends and `RangeSync.Origin.landed` which bytes reach the output; neither knows of the pieces
in which the bytes arrive, nor of the portions in which they are taken.

**A fetch comes to its verdict** (`RangeSync.Origin.ends_fetch_of_reach`), and what landed has been
written at the position of the output, whether the range is complete or not. The only other way to
end is a check that fails, and `RangeSync.Origin.IsSteady` excludes that. So two fetches whose
replies bring the same bytes cannot be told apart by what they answer or by what they write
(`RangeSync.Origin.fetches_exactly`).
-/

namespace RangeSync

open Act Disk

/-! ### Replies -/

/-- The two replies bring the same: the same fault, or the same bytes under the same status, in
whatever pieces. -/
def Http.BringSame : Except SendFault Response → Except SendFault Response → Prop
  | .error fault, .error fault' => fault = fault'
  | .ok answer, .ok answer' =>
    answer.status = answer'.status ∧ answer.body.delivered = answer'.body.delivered ∧
      answer.body.isBroken = answer'.body.isBroken
  | _, _ => False

namespace Origin

variable {o o' : Origin} {r : DownloadRange} {target : UInt64} {b b' : Bench} {n : Nat}
  {answer : Http.Response} {got got' : Except Http.SendFault Http.Response}

/-- The reply to the request for a range. -/
def reply (o : Origin) (r : DownloadRange) (net : Http.Net) :
    Except Http.SendFault Http.Response :=
  (runOn (o.client.fetch o.url (some r.header)) net).1

/-- The status of the answer is told along with the fault. -/
theorem status?_shortfall : (shortfall r answer).status? = some answer.status := by
  unfold shortfall
  split
  · rfl
  · split <;> rfl

/-- **What a reply comes to**: the length of the range if the answer serves it, or what is wrong. -/
def verdict (r : DownloadRange) :
    Except Http.SendFault Http.Response → Except DownloadFault UInt64
  | .error fault => .error (.unsent fault)
  | .ok answer =>
    if Http.isSuccess answer.status then
      if answer.Serves r then .ok (UInt64.ofNat r.span.2) else .error (shortfall r answer)
    else .error (.refused answer.status)

/-- The bytes of a reply that reach the output. -/
def landed (r : DownloadRange) : Except Http.SendFault Http.Response → List UInt8
  | .error _ => []
  | .ok answer => if Http.isSuccess answer.status then wanted r answer else []

/-- **A reply comes to a length exactly if its answer serves the range.** -/
theorem verdict_eq_ok_iff {m : UInt64} :
    verdict r got = .ok m ↔
      ∃ answer, got = .ok answer ∧ answer.Serves r ∧ m = UInt64.ofNat r.span.2 := by
  rcases got with fault | answer
  · exact ⟨nofun, fun ⟨_, h, _⟩ => nomatch h⟩
  · unfold verdict
    dsimp only
    constructor
    · intro h
      split at h
      · split at h
        · rename_i hserves
          cases h
          exact ⟨answer, rfl, hserves, rfl⟩
        · cases h
      · cases h
    · rintro ⟨_, heq, hserves, rfl⟩
      cases heq
      rw [if_pos (Http.isSuccess_iff.mpr hserves.1), if_pos hserves]

theorem landed_of_serves (h : answer.Serves r) : landed r (.ok answer) = wanted r answer :=
  if_pos (Http.isSuccess_iff.mpr h.1)

theorem length_landed_le : (landed r got).length ≤ r.span.2 := by
  rcases got with fault | answer
  · exact Nat.zero_le _
  · unfold landed
    dsimp only
    split
    · exact length_wanted_le
    · exact Nat.zero_le _

/-- Replies that bring the same come to the same. -/
theorem verdict_congr (h : Http.BringSame got got') :
    verdict r got = verdict r got' ∧ landed r got = landed r got' := by
  rcases got with fault | answer <;> rcases got' with fault' | answer'
  · cases h
    exact ⟨rfl, rfl⟩
  · exact h.elim
  · exact h.elim
  · obtain ⟨hstatus, hdelivered, hbroken⟩ := h
    have hskip : answer.offset r = answer'.offset r := by
      rw [Http.Response.offset, Http.Response.offset, hstatus]
    have hwanted : wanted r answer = wanted r answer' := by
      rw [wanted, wanted, hskip, hdelivered]
    have hserves : answer.Serves r ↔ answer'.Serves r := by
      rw [Http.Response.Serves, Http.Response.Serves, hskip, hstatus, hdelivered]
    have hshort : shortfall r answer = shortfall r answer' := by
      rw [shortfall, shortfall, hskip, hstatus, hdelivered, hbroken, hwanted]
    constructor
    · simp only [verdict, hstatus, hserves, hshort]
    · simp only [landed, hstatus, hwanted]

/-! ### Storing and taking -/

/-- **Portions are stored** inside of the reach of the output, unless bytes arrive that were not
announced. -/
theorem ends_store_of_reach (h : b.CanReach n) (pieces : List (List UInt8))
    (hfit : b.1.position + pieces.flatten.length ≤ n)
    (hlt : pieces.flatten.length < UInt64.size) :
    (store pieces).Ends b
      (fun _ b' => b.Wrote pieces.flatten b' ∧ b'.2.net = b.2.net ∧
        Advances pieces.flatten.length b.2.progress b'.2.progress ∧ b'.CanReach n)
      fun cause _ => cause = .crashed ∧ ¬ HasRoom pieces.flatten.length b.2.progress := by
  -- the induction is on the portions; the output keeps its position behind the last one
  induction pieces generalizing b with
  | nil => exact ⟨.nil (.refl b), rfl, Advances.refl _, h⟩
  | cons piece rest ih =>
    rw [List.flatten_cons, List.length_append] at hfit hlt ⊢
    have hpiece : b.1.position + piece.length ≤ n := by omega
    have hcount : piece.length < UInt64.size := by omega
    unfold store
    rw [ends_bind]
    refine (h.ends_write hpiece).mono ?_ fun _ _ hno => hno.elim
    rintro _ b₁ ⟨h₁, hp₁, hr₁⟩
    rw [ends_bind]
    refine (hr₁.ends_count hcount).mono ?_ ?_
    · rintro _ b₂ ⟨h₂, hnet₂, ha₂, hr₂⟩
      have hwrote : b.Wrote (piece ++ []) b₂ := h₁.append (.nil h₂)
      rw [List.append_nil] at hwrote
      rw [hp₁.progress] at ha₂
      have hposition := hwrote.position
      refine (ih hr₂ (by omega) (by omega)).mono ?_ ?_
      · rintro _ b₃ ⟨h₃, hnet₃, ha₃, hr₃⟩
        exact ⟨hwrote.append h₃, hnet₃.trans (hnet₂.trans hp₁.net), ha₂.trans ha₃, hr₃⟩
      · rintro cause _ ⟨hcause, hno⟩
        exact ⟨hcause, fun hroom => hno (hroom.advance ha₂)⟩
    · rintro cause _ ⟨hcause, hno⟩
      rw [hp₁.progress] at hno
      exact ⟨hcause, fun hroom => hno (hroom.mono (Nat.le_add_right _ _))⟩

/-- **Taking the range out of an answer** that went well writes what there is of it, and it succeeds
if that is all of it. -/
theorem ends_take_of_reach (o : Origin) (target : UInt64) (h : b.CanReach n)
    (hsuccess : Http.isSuccess answer.status = true)
    (hfit : b.1.position + (wanted r answer).length ≤ n) :
    (o.take r target answer).Ends b
      (fun m b' => (answer.Serves r ∧ m = UInt64.ofNat r.span.2 ∧ o.portion < roomLimit) ∧
        b.Wrote (wanted r answer) b' ∧ b'.2.net = b.2.net ∧
        Advances r.span.2 b.2.progress b'.2.progress ∧ b'.CanReach n)
      fun cause b' => (¬ answer.Serves r ∧
          cause = .failed (.download r target (shortfall r answer)) ∧
          b.Wrote (wanted r answer) b') ∨
        cause = .crashed ∧ ¬ o.IsSteady [r] b.2.progress := by
  have hserves : answer.Serves r ↔ answer.offset r + r.span.2 ≤ answer.body.delivered.length :=
    ⟨fun hs => hs.2, fun hlong => ⟨Http.isSuccess_iff.mp hsuccess, hlong⟩⟩
  have hcount : (wanted r answer).length =
      min r.span.2 (answer.body.delivered.length - answer.offset r) := length_wanted_eq_min
  refine ends_take_cases (fun hshort => ?_) (fun hcheck => ?_)
    fun m pieces hm hportion hskip hpieces _ => ?_
  · -- the answer ends before the range begins
    have hnothing : wanted r answer = [] := List.eq_nil_of_length_eq_zero (by omega)
    exact Or.inl ⟨by rw [hserves]; omega, rfl, hnothing ▸ .nil (.refl b)⟩
  · refine Or.inr ⟨rfl, fun hs => ?_⟩
    rcases hcheck with hlength | hroom
    · exact hs.lengths r List.mem_cons_self hlength
    · exact absurd hs.portion (Nat.not_lt.mpr hroom)
  · have hsize := m.toNat_lt_size
    have hends := ends_store_of_reach h pieces (by rwa [hpieces]) (by rw [hpieces]; omega)
    rw [hpieces] at hends
    refine hends.mono ?_ ?_
    · rintro _ b₁ ⟨h₁, hnet₁, ha₁, hr₁⟩
      refine ⟨fun hall => ?_, fun hfew => Or.inl ⟨by rw [hserves]; omega, rfl, h₁⟩⟩
      have hexact : (wanted r answer).length = r.span.2 := by omega
      rw [hexact] at ha₁
      refine ⟨⟨hserves.mpr (by omega), ?_, hportion⟩, h₁, hnet₁, ha₁, hr₁⟩
      rw [← hm, UInt64.ofNat_toNat]
    · rintro cause b₁ ⟨hcause, hno⟩
      exact Or.inr ⟨hcause, fun hs => hno (hs.room.mono length_wanted_le)⟩

/-! ### Fetching -/

/-- **Fetching a range comes to the verdict on the reply**, and what landed has been written. If it
does not, then a check has failed. -/
theorem ends_fetch_of_reach (o : Origin) (target : UInt64) (h : b.CanReach n)
    (hfit : b.1.position + (landed r (o.reply r b.2.net)).length ≤ n) :
    (o.fetch r target).Ends b
      (fun m b' => (verdict r (o.reply r b.2.net) = .ok m ∧ o.portion < roomLimit) ∧
        b.Wrote (landed r (o.reply r b.2.net)) b' ∧
        b'.2.net = (runOn (o.client.fetch o.url (some r.header)) b.2.net).2 ∧
        Advances r.span.2 b.2.progress b'.2.progress ∧ b'.CanReach n)
      fun cause b' => (∃ fault, verdict r (o.reply r b.2.net) = .error fault ∧
          cause = .failed (.download r target fault) ∧
          b.Wrote (landed r (o.reply r b.2.net)) b') ∨
        cause = .crashed ∧ ¬ o.IsSteady [r] b.2.progress := by
  refine ends_fetch_cases (fun fault net hserver hrun => ?_)
    (fun answer net hserver hrun hrefused => ?_) fun answer net log hserver hrun hsuccess => ?_
  · have hreply : o.reply r b.2.net = .error fault := congrArg Prod.fst hrun
    rw [hreply]
    exact Or.inl ⟨.unsent fault, rfl, rfl,
      .nil (Bench.carries_of_disk b { b.2 with net } (Kept.refl _) hserver)⟩
  · have hreply : o.reply r b.2.net = .ok answer := congrArg Prod.fst hrun
    rw [hreply]
    refine Or.inl ⟨.refused answer.status, if_neg hrefused, rfl, ?_⟩
    rw [landed, if_neg hrefused]
    exact .nil (Bench.carries_of_disk b { b.2 with net } (Kept.refl _) hserver)
  · have hreply : o.reply r b.2.net = .ok answer := congrArg Prod.fst hrun
    have hlanded : landed r (.ok answer) = wanted r answer := if_pos hsuccess
    have hverdict : verdict r (.ok answer) = if answer.Serves r then
        .ok (UInt64.ofNat r.span.2) else .error (shortfall r answer) := if_pos hsuccess
    rw [hreply, hlanded] at hfit ⊢
    rw [hrun, hverdict]
    have h₁ := Bench.carries_of_disk b { b.2 with net, log } (Kept.refl _) hserver
    have hr₁ : Bench.CanReach (b.1, { b.2 with net, log }) n := h.kept (Kept.refl _) hserver
    refine (o.ends_take_of_reach target hr₁ hsuccess hfit).mono ?_ ?_
    · rintro m b₂ ⟨⟨hserves, hm, hportion⟩, h₂, hnet₂, ha₂, hr₂⟩
      rw [if_pos hserves, hm]
      exact ⟨⟨rfl, hportion⟩, (Bench.Wrote.nil h₁).append h₂, hnet₂, ha₂, hr₂⟩
    · rintro cause b₂ (⟨hunserved, hcause, h₂⟩ | ⟨hcause, hno⟩)
      · rw [if_neg hunserved]
        exact Or.inl ⟨_, rfl, hcause, (Bench.Wrote.nil h₁).append h₂⟩
      · exact Or.inr ⟨hcause, hno⟩

/-- No check fails in the fetch of one range that has a length and whose bytes are expected, if a
portion has room. -/
theorem isSteady_of_room {p : Option Tracker} (hlast : r.last.toNat + 1 < UInt64.size)
    (hchunk : o.chunk.toNat < roomLimit) (hroom : HasRoom r.span.2 p) : o.IsSteady [r] p := by
  refine ⟨fun r' hr' => ?_, ?_, hroom⟩
  · rw [List.mem_singleton.mp hr']
    exact DownloadRange.length?_ne_none hlast
  · have hlimit : 1 < roomLimit := by decide
    unfold portion
    omega

/-- **A fetch comes to the verdict on the reply** if no check can fail: the range has a length, a
portion has room, and the bytes of the range are expected. -/
theorem ends_fetch_comes_to (o : Origin) (hlast : r.last.toNat + 1 < UInt64.size)
    (hchunk : o.chunk.toNat < roomLimit)
    (hreach : b.CanReach (b.1.position + (landed r (o.reply r b.2.net)).length))
    (hroom : HasRoom r.span.2 b.2.progress) (target : UInt64) :
    (o.fetch r target).Ends b
      (fun n b' => verdict r (o.reply r b.2.net) = .ok n ∧
        b.Wrote (landed r (o.reply r b.2.net)) b')
      fun cause b' => ∃ fault, verdict r (o.reply r b.2.net) = .error fault ∧
        cause = .failed (.download r target fault) ∧
        b.Wrote (landed r (o.reply r b.2.net)) b' := by
  have hsteady : o.IsSteady [r] b.2.progress := isSteady_of_room hlast hchunk hroom
  refine (o.ends_fetch_of_reach target hreach (Nat.le_refl _)).mono ?_ ?_
  · rintro n b' ⟨⟨hn, _⟩, hwrote, _⟩
    exact ⟨hn, hwrote⟩
  · rintro cause b' (hfault | ⟨_, hno⟩)
    · exact hfault
    · exact absurd hsteady hno

/-- **Two fetches whose replies bring the same cannot be told apart**, if they start with the same
bytes at the same position. -/
theorem runOn_fetch_congr (hlast : r.last.toNat + 1 < UInt64.size)
    (hchunk : o.chunk.toNat < roomLimit ∧ o'.chunk.toNat < roomLimit)
    (hreach : b.CanReach (b.1.position + (landed r (o.reply r b.2.net)).length))
    (hreach' : b'.CanReach (b'.1.position + (landed r (o'.reply r b'.2.net)).length))
    (hroom : HasRoom r.span.2 b.2.progress) (hroom' : HasRoom r.span.2 b'.2.progress)
    (hsame : Http.BringSame (o.reply r b.2.net) (o'.reply r b'.2.net))
    (hbytes : b'.bytes = b.bytes) (hposition : b'.1.position = b.1.position) (target : UInt64) :
    (runOn (o'.fetch r target) b').1 = (runOn (o.fetch r target) b).1 ∧
      (runOn (o'.fetch r target) b').2.bytes = (runOn (o.fetch r target) b).2.bytes ∧
      (runOn (o'.fetch r target) b').2.1.position =
        (runOn (o.fetch r target) b).2.1.position := by
  have hends := o.ends_fetch_comes_to hlast hchunk.1 hreach hroom target
  have hends' := o'.ends_fetch_comes_to hlast hchunk.2 hreach' hroom' target
  obtain ⟨hverdict, hlanded⟩ := verdict_congr (r := r) hsame
  rw [← hverdict, ← hlanded] at hends'
  -- what was written is the same, and it was written to the same place
  have hstate {b₁ b₂ : Bench} (h₁ : b.Wrote (landed r (o.reply r b.2.net)) b₁)
      (h₂ : b'.Wrote (landed r (o.reply r b.2.net)) b₂) :
      b₂.bytes = b₁.bytes ∧ b₂.1.position = b₁.1.position := by
    rw [h₁.bytes, h₂.bytes, h₁.position, h₂.position, hbytes, hposition]
    exact ⟨rfl, rfl⟩
  rcases hrun : runOn (o.fetch r target) b with ⟨cause | n, b₁⟩ <;>
    rcases hrun' : runOn (o'.fetch r target) b' with ⟨cause' | n', b₂⟩
  · obtain ⟨fault, hfault, rfl, h₁⟩ := hends.of_error hrun
    obtain ⟨fault', hfault', rfl, h₂⟩ := hends'.of_error hrun'
    obtain rfl := Except.error.inj (hfault.symm.trans hfault')
    exact ⟨rfl, hstate h₁ h₂⟩
  · obtain ⟨fault, hfault, _⟩ := hends.of_error hrun
    cases hfault.symm.trans (hends'.of_ok hrun').1
  · obtain ⟨fault, hfault, _⟩ := hends'.of_error hrun'
    cases hfault.symm.trans (hends.of_ok hrun).1
  · obtain ⟨hn, h₁⟩ := hends.of_ok hrun
    obtain ⟨hn', h₂⟩ := hends'.of_ok hrun'
    obtain rfl := Except.ok.inj (hn.symm.trans hn')
    exact ⟨rfl, hstate h₁ h₂⟩

/-- **What fetching a range does** where the output can be written. Without an answer, or with one
that reports an error, nothing is written. Otherwise the range is taken out of the bytes that
arrive, those in front of it being passed over if the whole file was sent: the fetch succeeds
exactly if all of its bytes are among them, and what there is of it has been written in either case,
at the position of the output, which is behind it then. In which pieces the bytes arrive and how
many are taken at a time makes no difference. -/
theorem fetches_exactly (o : Origin) (r : DownloadRange) (target : UInt64) (b : Bench)
    (hlast : r.last.toNat + 1 < UInt64.size) (hchunk : o.chunk.toNat < roomLimit)
    (hreach : b.CanReach (b.1.position + (landed r (o.reply r b.2.net)).length))
    (hroom : HasRoom r.span.2 b.2.progress) :
    (∀ fault, o.reply r b.2.net = .error fault →
      (o.fetch r target).Ends b (fun _ _ => False) fun cause b' =>
        cause = .failed (.download r target (.unsent fault)) ∧ b.Wrote [] b') ∧
    (∀ answer, o.reply r b.2.net = .ok answer → Http.isSuccess answer.status = false →
      (o.fetch r target).Ends b (fun _ _ => False) fun cause b' =>
        cause = .failed (.download r target (.refused answer.status)) ∧ b.Wrote [] b') ∧
    (∀ answer skip, o.reply r b.2.net = .ok answer → Http.isSuccess answer.status = true →
      skip = (if answer.status = 206 then 0 else r.first.toNat) →
      (o.fetch r target).Ends b
        (fun n b' => skip + r.span.2 ≤ answer.body.delivered.length ∧ n.toNat = r.span.2 ∧
          b.Wrote ((answer.body.delivered.drop skip).take r.span.2) b')
        fun cause b' => answer.body.delivered.length < skip + r.span.2 ∧
          (∃ fault, cause = .failed (.download r target fault) ∧
            fault.status? = some answer.status) ∧
          b.Wrote (answer.body.delivered.drop skip) b') ∧
    ∀ (o' : Origin) (b' : Bench), o'.chunk.toNat < roomLimit →
      b'.CanReach (b'.1.position + (landed r (o'.reply r b'.2.net)).length) →
      HasRoom r.span.2 b'.2.progress → Http.BringSame (o.reply r b.2.net) (o'.reply r b'.2.net) →
      b'.bytes = b.bytes → b'.1.position = b.1.position →
      (runOn (o'.fetch r target) b').1 = (runOn (o.fetch r target) b).1 ∧
        (runOn (o'.fetch r target) b').2.bytes = (runOn (o.fetch r target) b).2.bytes ∧
        (runOn (o'.fetch r target) b').2.1.position =
          (runOn (o.fetch r target) b).2.1.position := by
  have hends := o.ends_fetch_comes_to hlast hchunk hreach hroom target
  have hspan : r.span.2 < UInt64.size := by
    change r.last.toNat + 1 - r.first.toNat < UInt64.size
    omega
  refine ⟨fun fault hreply => ?_, fun answer hreply hfailed => ?_, fun answer skip hreply hsuccess
    hskip => ?_, fun o' b' hchunk' hreach' hroom' hsame hbytes hposition => ?_⟩
  · rw [hreply] at hends
    refine hends.mono (fun _ _ ⟨hno, _⟩ => nomatch hno) ?_
    rintro cause b' ⟨fault', hfault, hcause, hwrote⟩
    cases hfault
    exact ⟨hcause, hwrote⟩
  · have hfailed : ¬ Http.isSuccess answer.status = true := by rw [hfailed]; exact nofun
    rw [hreply, verdict, landed, if_neg hfailed, if_neg hfailed] at hends
    refine hends.mono (fun _ _ ⟨hno, _⟩ => nomatch hno) ?_
    rintro cause b' ⟨fault', hfault, hcause, hwrote⟩
    cases hfault
    exact ⟨hcause, hwrote⟩
  · obtain rfl : skip = answer.offset r := hskip
    rw [hreply, verdict, landed, if_pos hsuccess, if_pos hsuccess] at hends
    refine hends.mono ?_ ?_
    · rintro n b' ⟨hn, hwrote⟩
      split at hn
      · rename_i hserves
        cases hn
        exact ⟨hserves.2, UInt64.toNat_ofNat_of_lt' hspan, hwrote⟩
      · cases hn
    · rintro cause b' ⟨fault, hfault, hcause, hwrote⟩
      split at hfault
      · cases hfault
      · rename_i hunserved
        cases hfault
        have hshort : answer.body.delivered.length < answer.offset r + r.span.2 :=
          Nat.lt_of_not_le fun hlong => hunserved ⟨Http.isSuccess_iff.mp hsuccess, hlong⟩
        rw [wanted, List.take_of_length_le (by rw [List.length_drop]; omega)] at hwrote
        exact ⟨hshort, ⟨_, hcause, status?_shortfall⟩, hwrote⟩
  · exact runOn_fetch_congr hlast ⟨hchunk, hchunk'⟩ hreach hreach' hroom hroom' hsame hbytes
      hposition target

/-- An origin that takes one byte at a time. -/
def sipping : Origin where
  client := ⟨productName⟩
  url := ⟨"http", true, "", none, some (.ipv6 [0, 0, 0, 0, 0, 0, 0, 1]), none, "/cde", none, none⟩
  chunk := 0

/-- An output of three zeros that is kept in memory, at its second byte, and a server that sends the
whole file in two pieces. -/
def receiving : Bench where
  fst := ⟨.staged ⟨[0, 0, 0], 1, 3, false⟩, "cde", 3⟩
  snd := {
    disk := .ofTree [] ⟨[]⟩
    net := ⟨fun _ _ => .answer 200 [] ⟨[[99, 100], [101]], false⟩, []⟩
    programs := ⟨fun _ _ => .error .notFound, []⟩
    progress := none
    log := []
    isVerbose := false }

/-- The last two bytes are taken out of the whole file. -/
theorem fetches_exactly_sliced :
    ∃ out, runOn (sipping.fetch ⟨1, 2⟩ 3) receiving = (.ok 2, out) ∧
      out.bytes = [0, 100, 101] ∧ out.1.position = 3 := by
  have hfound : (sipping.reply ⟨1, 2⟩ receiving.2.net).toOption =
      some ⟨sipping.url.withoutUser, 200, ⟨[[99, 100], [101]], false⟩⟩ := by decide +kernel
  rcases hreply : sipping.reply ⟨1, 2⟩ receiving.2.net with fault | answer
  · rw [hreply] at hfound
    cases hfound
  rw [hreply] at hfound
  obtain rfl := Option.some.inj hfound
  have hreach : receiving.CanReach 3 := ⟨nofun, isObliging_ofTree _ _, Or.inl (by decide)⟩
  obtain ⟨_, _, htaken, _⟩ := fetches_exactly sipping ⟨1, 2⟩ 3 receiving (by decide) (by decide)
    (hreach.mono (Nat.add_le_add_left length_landed_le 1)) nofun
  obtain ⟨n, out, hrun, _, hn, hwrote⟩ := ((htaken _ 1 hreply rfl rfl).mono (fun _ _ h => h)
    fun _ _ ⟨hshort, _⟩ => absurd hshort (by decide)).exists_ok
  obtain rfl : n = 2 := UInt64.toNat_inj.mp hn
  exact ⟨out, hrun, hwrote.bytes, hwrote.position⟩

end Origin
end RangeSync
