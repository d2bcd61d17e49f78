import RangeSync.Proofs.ByteSizes
import RangeSync.Proofs.Fetch
import RangeSync.Proofs.Overrides
import RangeSync.Proofs.Utf8

/-!
# Which chunk sizes work

How many bytes of an answer are taken at a time is a setting, and any byte size is accepted for it,
down to zero and up to the greatest count, at which all greater sizes are cut off. It should make no
difference to what is fetched. Zero makes none, since one byte is taken then. But room for a portion
is made before its bytes are there, and as much as the setting says, even for a range of a few bytes;
and there is a limit to the room that can be made.

The room is made between the last check of the answer and the first byte of the range. So everything
hangs on whether a reply gets that far, `RangeSync.Origin.Begins`. If it does, then a portion without
room crashes the fetch, whatever bytes follow (`RangeSync.Origin.take_eq_crash`). If it does not,
then the portion is never looked at, and a fetch ends in the same way with every chunk size
(`RangeSync.Origin.runOn_fetch_of_not_begins`). With room, it is
`RangeSync.Origin.runOn_fetch_congr` that says that portions do not matter.
-/

namespace RangeSync

open Act Disk

/-! ### The chunk size of an environment -/

/-- The origin that settings make of a client and a URL. -/
def Origin.ofSettings (client : Http.Client) (url : Url) (settings : ReconstructionSettings) :
    Origin :=
  ⟨client, url, settings.downloadChunkSize.count⟩

/-- **An accepted chunk size is the one that is used.** -/
theorem Settings.downloadChunkSize_overridden {before : Settings} {env : Environment}
    {text : String} {size : ByteSize}
    (htext : env.text? "ZSYNC_RECONSTRUCTION_DOWNLOAD_CHUNK_SIZE" = some text)
    (hsize : ByteSize.parse text = .ok size) :
    (before.overridden env).1.reconstruction.downloadChunkSize = size := by
  let f : SettingField :=
    ⟨ByteSize, .reconstruction, "download_chunk_size", (·.reconstruction.downloadChunkSize)⟩
  have hname : f.variableName = "ZSYNC_RECONSTRUCTION_DOWNLOAD_CHUNK_SIZE" := by decide +kernel
  have hgiven : f.given? env = some size := SettingField.given?_eq_some_iff.mpr
    ⟨text, hname ▸ htext, (ByteSize.setting_read? text).trans (ByteSize.parse_eq_ok_iff.mp hsize)⟩
  have hfield : f ∈ fields := by simp [fields, f]
  have hget := get_overridden hfield before env
  rw [hgiven] at hget
  exact hget

namespace Origin

variable {o : Origin} {r : DownloadRange} {target chunk : UInt64} {b : Bench}
  {answer : Http.Response}

/-! ### Where room is made -/

/-- The reply gets as far as to the beginning of the range: there is an answer without an error, and
the bytes in front of the range have arrived. -/
def Begins (r : DownloadRange) : Except Http.SendFault Http.Response → Prop
  | .error _ => False
  | .ok answer =>
    (200 ≤ answer.status ∧ answer.status < 300) ∧
      answer.offset r ≤ answer.body.delivered.length

instance (r : DownloadRange) (got : Except Http.SendFault Http.Response) :
    Decidable (Begins r got) :=
  match got with
  | .error _ => .isFalse id
  | .ok _ => inferInstanceAs (Decidable (_ ∧ _))

/-- An answer that ends in front of the range is refused before room is made. -/
theorem take_eq_fail (o : Origin) (target : UInt64)
    (h : answer.body.delivered.length < answer.offset r) :
    o.take r target answer = Act.fail (.download r target (shortfall r answer)) := by
  have hlead : answer.body.delivered.length < lead answer.status r := lead_eq ▸ h
  unfold take shortfall
  simp only [if_pos hlead, if_pos h]

/-- **Without room for a portion, taking the range crashes.** -/
theorem take_eq_crash (target : UInt64) (hskip : answer.offset r ≤ answer.body.delivered.length)
    (hlength : r.length? ≠ none) (hroom : roomLimit ≤ o.portion) :
    o.take r target answer = Act.crash := by
  obtain ⟨n, hn⟩ := Option.ne_none_iff_exists'.mp hlength
  rw [← lead_eq] at hskip
  unfold take
  simp only [if_neg (Nat.not_lt.mpr hskip), hn, orCrash, pure_bind, if_pos hroom]

/-- Without room for a portion, a fetch crashes as soon as the range begins. -/
theorem ends_fetch_crash (target : UInt64) (hbegins : Begins r (o.reply r b.2.net))
    (hlength : r.length? ≠ none) (hroom : roomLimit ≤ o.portion) :
    (o.fetch r target).Ends b (fun _ _ => False) fun cause _ => cause = .crashed := by
  refine ends_fetch_cases (fun fault net _ hrun => ?_) (fun answer net _ hrun hrefused => ?_)
    fun answer net log _ hrun _ => ?_
  · rw [show o.reply r b.2.net = .error fault from congrArg Prod.fst hrun] at hbegins
    exact hbegins.elim
  · rw [show o.reply r b.2.net = .ok answer from congrArg Prod.fst hrun] at hbegins
    exact absurd (Http.isSuccess_iff.mpr hbegins.1) hrefused
  · rw [show o.reply r b.2.net = .ok answer from congrArg Prod.fst hrun] at hbegins
    rw [take_eq_crash target hbegins.2 hlength hroom, ends_crash]

/-- **Before the range begins, the chunk size does not matter.** -/
theorem runOn_fetch_of_not_begins (chunk target : UInt64)
    (h : ¬ Begins r (o.reply r b.2.net)) :
    runOn (({ o with chunk } : Origin).fetch r target) b = runOn (o.fetch r target) b := by
  unfold fetch
  dsimp only
  rw [runOn_bind, runOn_bind, Bench.onNet, runOn_within]
  rcases hrun : runOn (o.client.fetch o.url (some r.header)) b.2.net with ⟨fault | answer, net⟩
  · rfl
  · rw [show o.reply r b.2.net = .ok answer from congrArg Prod.fst hrun] at h
    dsimp only [Except.mapError]
    rcases hsuccess : Http.isSuccess answer.status
    · rfl
    · have hshort : answer.body.delivered.length < answer.offset r :=
        Nat.lt_of_not_le fun hskip => h ⟨Http.isSuccess_iff.mp hsuccess, hskip⟩
      rw [take_eq_fail o target hshort, take_eq_fail { o with chunk } target hshort]
      rfl

/-! ### When a fetch crashes -/

/-- A fetch with room for its portions does not crash, whatever happens to the output. -/
theorem fetch_ne_crashed (target : UInt64) (hlast : r.last.toNat + 1 < UInt64.size)
    (ho : b.IsOpen) (hroom : HasRoom r.span.2 b.2.progress) (hchunk : o.chunk.toNat < roomLimit) :
    (runOn (o.fetch r target) b).1 ≠ .error .crashed := by
  intro hcrashed
  rcases hrun : runOn (o.fetch r target) b with ⟨cause | n, b'⟩
  · rw [hrun] at hcrashed
    obtain rfl := Except.error.inj hcrashed
    obtain ⟨_, ⟨_, hfault, _⟩ | hhinders⟩ := (o.ends_fetch r target b ho).of_error hrun
    · cases hfault
    · exact hhinders.not_of_crashed rfl (isSteady_of_room hlast hchunk hroom)
  · rw [hrun] at hcrashed
    cases hcrashed

/-- **A fetch crashes exactly if** there is no room for a portion and the range begins. -/
theorem fetch_eq_crashed_iff (target : UInt64) (hlast : r.last.toNat + 1 < UInt64.size)
    (ho : b.IsOpen) (hroom : HasRoom r.span.2 b.2.progress) :
    (runOn (o.fetch r target) b).1 = .error .crashed ↔
      roomLimit ≤ o.chunk.toNat ∧ Begins r (o.reply r b.2.net) := by
  constructor
  · intro hcrashed
    constructor
    · by_contra hchunk
      exact fetch_ne_crashed target hlast ho hroom (Nat.lt_of_not_le hchunk) hcrashed
    · -- otherwise the fetch would crash with small portions as well
      by_contra hbegins
      rw [← runOn_fetch_of_not_begins 1 target hbegins] at hcrashed
      exact fetch_ne_crashed target hlast ho hroom (show (1 : UInt64).toNat < roomLimit by decide)
        hcrashed
  · rintro ⟨hchunk, hbegins⟩
    have hlength : r.length? ≠ none := DownloadRange.length?_ne_none hlast
    have hportion : roomLimit ≤ o.portion := Nat.le_trans hchunk (Nat.le_max_right 1 _)
    obtain ⟨_, _, hrun, rfl⟩ := (ends_fetch_crash target hbegins hlength hportion).exists_error
    rw [hrun]

/-- **A chunk size matters only if there is no room for it.** Whatever byte size is accepted as the
chunk size of an environment, the fetch of a range crashes exactly if the size is at the limit of
what room can be made for and the reply gets as far as to the range. In every other case the fetch
answers the same as with the default chunk size, and writes the same bytes to the same place, where
the output can be written. -/
theorem chunk_size_matters_only_without_room {env : Environment} {text : String} {size : ByteSize}
    (client : Http.Client) (url : Url) (r : DownloadRange) (target : UInt64) (b : Bench)
    (htext : env.text? "ZSYNC_RECONSTRUCTION_DOWNLOAD_CHUNK_SIZE" = some text)
    (hsize : ByteSize.parse text = .ok size) (hlast : r.last.toNat + 1 < UInt64.size)
    (ho : b.IsOpen) (hroom : HasRoom r.span.2 b.2.progress) :
    let given := ofSettings client url (Settings.default.overridden env).1.reconstruction
    let usual := ofSettings client url Settings.default.reconstruction
    ((runOn (given.fetch r target) b).1 = .error .crashed ↔
      roomLimit ≤ size.count.toNat ∧ Begins r (usual.reply r b.2.net)) ∧
    (size.count.toNat < roomLimit ∨ ¬ Begins r (usual.reply r b.2.net) →
      b.CanReach (b.1.position + r.span.2) →
      (runOn (given.fetch r target) b).1 = (runOn (usual.fetch r target) b).1 ∧
        (runOn (given.fetch r target) b).2.bytes = (runOn (usual.fetch r target) b).2.bytes ∧
        (runOn (given.fetch r target) b).2.1.position =
          (runOn (usual.fetch r target) b).2.1.position) := by
  intro given usual
  have hgiven : given = { usual with chunk := size.count } := by
    rw [show given = ⟨client, url,
      (Settings.default.overridden env).1.reconstruction.downloadChunkSize.count⟩ from rfl,
      Settings.downloadChunkSize_overridden htext hsize]
    rfl
  rw [hgiven]
  refine ⟨fetch_eq_crashed_iff target hlast ho hroom, fun hcase hreach => ?_⟩
  rcases hcase with hchunk | hbegins
  · have hlanded : (landed r (usual.reply r b.2.net)).length ≤ r.span.2 := length_landed_le
    have hwithin := hreach.mono (Nat.add_le_add_left hlanded b.1.position)
    have hsame : Http.BringSame (usual.reply r b.2.net) (usual.reply r b.2.net) := by
      rcases usual.reply r b.2.net with fault | answer
      exacts [rfl, ⟨rfl, rfl, rfl⟩]
    have husual : usual.chunk.toNat < roomLimit :=
      show Settings.default.reconstruction.downloadChunkSize.count.toNat < roomLimit by decide
    exact @runOn_fetch_congr usual { usual with chunk := size.count } r b b hlast
      ⟨husual, hchunk⟩ hwithin hwithin hroom hroom hsame rfl rfl target
  · rw [runOn_fetch_of_not_begins size.count target hbegins]
    exact ⟨rfl, rfl, rfl⟩

/-- An environment with a chunk size. -/
def chunked (text : String) : Environment :=
  Environment.empty.set "ZSYNC_RECONSTRUCTION_DOWNLOAD_CHUNK_SIZE" (Text.encode text)

theorem text?_chunked (text : String) :
    (chunked text).text? "ZSYNC_RECONSTRUCTION_DOWNLOAD_CHUNK_SIZE" = some text := by
  rw [Environment.text?, chunked, Environment.get?, Environment.set, List.lookup_cons_self,
    Option.bind_some, Text.decode?_encode]

/-- The fetch of the last two bytes of a file, with the settings of an environment. -/
def lastTwo (settings : ReconstructionSettings) : BenchAct UInt64 :=
  (ofSettings sipping.client sipping.url settings).fetch ⟨1, 2⟩ 3

theorem canReach_receiving : receiving.CanReach 3 :=
  ⟨nofun, isObliging_ofTree _ _, Or.inl (by decide)⟩

theorem lastTwo_default : (runOn (lastTwo Settings.default.reconstruction) receiving).1 = .ok 2 := by
  decide +kernel

/-- Portions of no bytes bring what portions of the usual size bring. -/
theorem chunk_size_zero_fetches : (runOn (lastTwo
    (Settings.default.overridden (chunked "0")).1.reconstruction) receiving).1 = .ok 2 := by
  have hzero : ByteSize.parse "0" = .ok ⟨0⟩ := ByteSize.parse_eq_ok_iff.mpr (by decide +kernel)
  obtain ⟨_, hsame⟩ := chunk_size_matters_only_without_room sipping.client sipping.url ⟨1, 2⟩ 3
    receiving (text?_chunked "0") hzero (by decide) canReach_receiving.isOpen nofun
  exact (hsame (Or.inl (by decide)) canReach_receiving).1.trans lastTwo_default

/-- **The greatest chunk size crashes a fetch** that brings two bytes with the usual one. -/
theorem greatest_chunk_size_crashes :
    ByteSize.parse "16777216tb" = .ok ⟨18446744073709551615⟩ ∧
    (runOn (lastTwo (Settings.default.overridden (chunked "16777216tb")).1.reconstruction)
      receiving).1 = .error .crashed ∧
    (runOn (lastTwo Settings.default.reconstruction) receiving).1 = .ok 2 := by
  have hgreatest : ByteSize.parse "16777216tb" = .ok ⟨18446744073709551615⟩ :=
    ByteSize.parse_eq_ok_iff.mpr (by decide +kernel)
  refine ⟨hgreatest, ?_, lastTwo_default⟩
  have hchunk := @Settings.downloadChunkSize_overridden .default _ _ _
    (text?_chunked "16777216tb") hgreatest
  refine (fetch_eq_crashed_iff 3 (by decide) canReach_receiving.isOpen nofun).mpr ⟨?_, ?_⟩
  · rw [ofSettings, hchunk]
    decide
  · change Begins ⟨1, 2⟩ (sipping.reply ⟨1, 2⟩ receiving.2.net)
    decide +kernel

end Origin
end RangeSync
