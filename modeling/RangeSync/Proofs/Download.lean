import RangeSync.Proofs.Bench
import RangeSync.Rebuild.Job

/-!
# What downloading does

A range is asked for, and the bytes of the answer go to the output as they arrive, cut to the range.
Whatever a server answers, a range that counts as downloaded is laid over the output as a whole: as
many bytes as it has, and at its place. Which bytes these are depends on the answers alone, so they
can be told without an output: `RangeSync.Job.deliveries?` asks for the ranges one after the other,
and is missing as soon as an answer does not serve its range. **What is laid over the output is what
is delivered** (`RangeSync.Job.ends_downloadAll`).

That the bytes are the right ones is another matter. It needs a server that offers the file,
`RangeSync.Http.Offers`: one that answers every request for a range with that range or with the
whole file.

The count of downloaded bytes goes along. It can crash a run, and so can a sum of lengths that
leaves its 64 bits; `RangeSync.Job.IsSteady` says what excludes this.
-/

namespace RangeSync

open Act Disk

/-! ### Servers -/

namespace Http

variable {server : Server} {url : Url} {file : List UInt8}

/-- The value of the header that asks for the bytes from one offset to another. -/
def rangeText (first last : Nat) : String :=
  "bytes=" ++ toString first ++ "-" ++ toString last

/-- A range is asked for by its first and its last offset. -/
theorem header_eq (r : DownloadRange) : r.header = rangeText r.first.toNat r.last.toNat :=
  rfl

/-- **The server offers a file at a URL**: each request for a range of the file is answered with the
range alone or with the whole file, as the server likes. -/
def Offers (server : Server) (url : Url) (file : List UInt8) : Prop :=
  ∀ (served : List Request) (request : Request) (r : DownloadRange),
    request.url = { url.withoutUser with fragment := none } →
    request.range = some (rangeText r.first.toNat r.last.toNat) →
    r.first.toNat ≤ r.last.toNat → r.last.toNat < file.length →
    ∃ headers body,
      server served request = .answer 206 headers body ∧ body.delivered = (r.slice file).2 ∨
        server served request = .answer 200 headers body ∧ body.delivered = file

/-- The answer holds the range, alone or with the rest of the file. -/
def Response.Holds (answer : Response) (r : DownloadRange) (file : List UInt8) : Prop :=
  answer.status = 206 ∧ answer.body.delivered = (r.slice file).2 ∨
    answer.status = 200 ∧ answer.body.delivered = file

/-- The net after a request: what reaches the server is in its history. -/
def Net.after (net : Net) (request : Request) : Net :=
  match net.server net.served request with
  | .unreachable => net
  | _ => { net with served := net.served ++ [request] }

@[simp] theorem Net.server_after (net : Net) (request : Request) :
    (net.after request).server = net.server := by
  unfold Net.after
  split <;> rfl

theorem ends_ask {ε : Type} (net : Net) (request : Request) :
    (Net.ask request : Act Net ε Reply).Ends net
      (fun reply net' => reply = net.server net.served request ∧ net' = net.after request)
      fun _ _ => False := by
  unfold Net.ask Net.after
  rw [ends_bind, ends_get]
  rcases hreply : net.server net.served request with _ | _ | _
  · exact ⟨rfl, rfl⟩
  · exact ⟨rfl, rfl⟩
  · exact ⟨rfl, rfl⟩

/-- **What is sent to fetch a file**, or a range of it: a request for its URL, and after each answer
that leads elsewhere one for where it leads. All of them name the same range and the same sender. -/
inductive Client.Sends (c : Client) (range : Option String) :
    Url → Net → List Request → Net → Prop
  /-- Nothing is sent to a URL that is none of the web. -/
  | nowhere {url : Url} {net : Net} : isWeb url = false → Sends c range url net [] net
  | once {url : Url} {net : Net} : isWeb url = true →
      Sends c range url net [c.request url range] (net.after (c.request url range))
  | redirected {url next : Url} {net net' : Net} {status : Nat} {headers : List (String × String)}
      {body : Body} {requests : List Request} : isWeb url = true →
      net.server net.served (c.request url range) = .answer status headers body →
      redirect? url status headers = some next →
      Sends c range next (net.after (c.request url range)) requests net' →
      Sends c range url net (c.request url range :: requests) net'

/-- All requests name the same range and the same sender. -/
theorem Client.Sends.signs {c : Client} {range : Option String} {net net' : Net}
    {requests : List Request} (h : c.Sends range url net requests net') :
    ∀ request ∈ requests, request.range = range ∧ request.userAgent = c.userAgent := by
  induction h with
  | nowhere _ => exact List.forall_mem_nil _
  | once _ => exact List.forall_mem_singleton.mpr ⟨rfl, rfl⟩
  | redirected _ _ _ _ ih => exact List.forall_mem_cons.mpr ⟨⟨rfl, rfl⟩, ih⟩

/-- The first request is for the URL itself. -/
theorem Client.Sends.starts {c : Client} {range : Option String} {net net' : Net}
    {requests : List Request} (h : c.Sends range url net requests net') :
    ∀ request ∈ requests.head?,
      request.url = { url with username := "", password := none, fragment := none } := by
  cases h with
  | nowhere _ => exact nofun
  | once _ | redirected _ _ _ _ =>
    rintro _ hfirst
    cases hfirst
    rfl

/-- However many requests are sent, the server is the same one. -/
theorem Client.Sends.server_eq {c : Client} {range : Option String} {net net' : Net}
    {requests : List Request} (h : c.Sends range url net requests net') :
    net'.server = net.server := by
  induction h with
  | nowhere _ => rfl
  | once _ => exact Net.server_after _ _
  | redirected _ _ _ _ ih => rw [ih, Net.server_after]

/-- **A fetch sends requests**, whether it is answered or not: one, and one more for each redirect
that it may follow. -/
theorem ends_follow_sends (c : Client) (range : Option String) (left : Nat) (url : Url)
    (net : Net) :
    (c.follow range left url).Ends net
      (fun _ net' => ∃ requests, c.Sends range url net requests net' ∧ requests.length ≤ left + 1)
      fun _ net' => ∃ requests, c.Sends range url net requests net' ∧
        requests.length ≤ left + 1 := by
  induction left using Nat.strongRecOn generalizing url net with
  | ind left ih =>
    unfold Client.follow
    rw [ends_when]
    split
    · rename_i hother
      exact ⟨[], .nowhere (by simpa using hother), Nat.zero_le _⟩
    · rename_i hweb
      have hweb : isWeb url = true := by simpa using hweb
      have hends : ∃ requests, c.Sends range url net requests (net.after (c.request url range)) ∧
          requests.length ≤ left + 1 :=
        ⟨_, .once hweb, Nat.le_add_left _ _⟩
      rw [ends_pure, ends_bind]
      refine (ends_ask net _).mono ?_ fun _ _ h => h.elim
      rintro reply _ ⟨hreply, rfl⟩
      split
      · exact hends
      · exact hends
      · split
        · exact hends
        · rename_i next hnext
          split
          · exact hends
          · rename_i left
            -- the requests after a redirect follow the one that was redirected
            have hmore {net' : Net} : (∃ requests, c.Sends range next
                (net.after (c.request url range)) requests net' ∧ requests.length ≤ left + 1) →
                ∃ requests, c.Sends range url net requests net' ∧
                  requests.length ≤ left + 1 + 1 := by
              rintro ⟨requests, hsends, hlen⟩
              exact ⟨_, .redirected hweb hreply.symm hnext hsends, Nat.succ_le_succ hlen⟩
            exact (ih left (Nat.lt_succ_self left) next _).mono (fun _ _ h => hmore h)
              fun _ _ h => hmore h

/-- However many redirects are followed, the server is the same one. -/
theorem ends_follow_server (c : Client) (range : Option String) (left : Nat) (url : Url)
    (net : Net) :
    (c.follow range left url).Ends net (fun _ net' => net'.server = net.server)
      fun _ net' => net'.server = net.server := by
  refine (ends_follow_sends c range left url net).mono ?_ ?_ <;>
    exact fun _ _ ⟨_, hsends, _⟩ => hsends.server_eq

/-- An answer of a server that offers a file leads nowhere else. -/
theorem redirect?_of_success {status : Nat} {headers : List (String × String)}
    (h : isRedirect status = false) : Client.redirect? url status headers = none := by
  rw [Client.redirect?, h]
  rfl

/-- **Asking a server that offers a file for a range of it** is answered with the range. -/
theorem exists_fetch_of_offers (c : Client) {r : DownloadRange} {net : Net}
    (hweb : isWeb url = true) (hoffers : Offers net.server url file)
    (hr : r.first.toNat ≤ r.last.toNat) (hlast : r.last.toNat < file.length) :
    ∃ answer net', runOn (c.fetch url (some r.header)) net = (.ok answer, net') ∧
      net'.server = net.server ∧ answer.Holds r file := by
  have hends : (c.fetch url (some r.header)).Ends net (fun answer net' =>
      net'.server = net.server ∧ answer.Holds r file) fun _ _ => False := by
    have hweb' : isWeb url.withoutUser = true := hweb
    unfold Client.fetch redirectLimit Client.follow
    rw [ends_when, hweb', if_neg (by decide), ends_pure, ends_bind]
    refine (ends_ask net _).mono ?_ fun _ _ h => h.elim
    rintro reply _ ⟨hreply, rfl⟩
    obtain ⟨headers, body, ⟨hanswer, hbody⟩ | ⟨hanswer, hbody⟩⟩ :=
      hoffers net.served (c.request url.withoutUser (some r.header)) r rfl rfl hr hlast
    · rw [hanswer] at hreply
      subst hreply
      simp only [redirect?_of_success (show isRedirect 206 = false by decide)]
      exact ⟨Net.server_after _ _, Or.inl ⟨rfl, hbody⟩⟩
    · rw [hanswer] at hreply
      subst hreply
      simp only [redirect?_of_success (show isRedirect 200 = false by decide)]
      exact ⟨Net.server_after _ _, Or.inr ⟨rfl, hbody⟩⟩
  obtain ⟨answer, net', hrun, h⟩ := hends.exists_ok
  exact ⟨answer, net', hrun, h⟩

end Http

/-! ### What is delivered -/

/-- Where a range begins in an answer: at once, if the answer holds a part of the file alone, and
where it begins in the file otherwise. -/
def Http.Response.offset (answer : Http.Response) (r : DownloadRange) : Nat :=
  if answer.status = 206 then 0 else r.first.toNat

/-- The bytes of a range in an answer. -/
def Origin.wanted (r : DownloadRange) (answer : Http.Response) : List UInt8 :=
  (answer.body.delivered.drop (answer.offset r)).take r.span.2

/-- **The answer serves a range**: it reports success, and all bytes of the range are in it. -/
def Http.Response.Serves (answer : Http.Response) (r : DownloadRange) : Prop :=
  (200 ≤ answer.status ∧ answer.status < 300) ∧
    answer.offset r + r.span.2 ≤ answer.body.delivered.length

instance (answer : Http.Response) (r : DownloadRange) : Decidable (answer.Serves r) :=
  inferInstanceAs (Decidable (_ ∧ _))

theorem Http.isSuccess_iff {status : Nat} :
    Http.isSuccess status = true ↔ 200 ≤ status ∧ status < 300 := by
  rw [Http.isSuccess, Bool.and_eq_true, decide_eq_true_iff, decide_eq_true_iff]

namespace Origin

variable {r : DownloadRange} {file : List UInt8} {answer : Http.Response} {o : Origin}
  {net net' : Http.Net} {ranges rest : List DownloadRange} {patches : List Patch}

/-- What comes before the range is passed over. -/
theorem lead_eq : lead answer.status r = answer.offset r :=
  rfl

theorem length_wanted_eq_min : (wanted r answer).length =
    min r.span.2 (answer.body.delivered.length - answer.offset r) := by
  rw [wanted, List.length_take, List.length_drop]

theorem length_wanted_le : (wanted r answer).length ≤ r.span.2 :=
  List.length_take_le _ _

theorem length_wanted (h : answer.Serves r) : (wanted r answer).length = r.span.2 := by
  have := h.2
  rw [length_wanted_eq_min]
  omega

/-- What is wrong with an answer that ends before the range does. -/
def shortfall (r : DownloadRange) (answer : Http.Response) : DownloadFault :=
  if answer.body.isBroken then .broken answer.status
  else if answer.body.delivered.length < answer.offset r then
    .endedBefore answer.status answer.body.delivered.length
  else .endedInside answer.status (wanted r answer).length (UInt64.ofNat r.span.2)

/-- **What is delivered** for ranges that are asked for one after the other: the patches that their
answers hold. Nothing is, as soon as a request has no answer or one that does not serve the
range. -/
def deliveries? (o : Origin) (net : Http.Net) : List DownloadRange → Option (List Patch)
  | [] => some []
  | r :: rest =>
    match runOn (o.client.fetch o.url (some (Http.rangeText r.first.toNat r.last.toNat))) net with
    | (.ok answer, net') =>
      if answer.Serves r then
        (o.deliveries? net' rest).map ((r.first.toNat, wanted r answer) :: ·)
      else none
    | (.error _, _) => none

/-- One range after another: the rest is asked for once the first range is there. -/
theorem deliveries?_cons :
    o.deliveries? net (r :: rest) = some patches ↔
      ∃ answer net' patches',
        runOn (o.client.fetch o.url (some r.header)) net = (.ok answer, net') ∧
        answer.Serves r ∧ o.deliveries? net' rest = some patches' ∧
        patches = (r.first.toNat, wanted r answer) :: patches' := by
  rw [deliveries?, ← Http.header_eq]
  rcases hrun : runOn (o.client.fetch o.url (some r.header)) net with ⟨fault | answer, net'⟩
  · refine ⟨nofun, ?_⟩
    rintro ⟨answer', net'', _, heq, _⟩
    cases heq
  · dsimp only
    constructor
    · intro h
      split at h
      · rename_i hserves
        obtain ⟨patches', hrest, rfl⟩ := Option.map_eq_some_iff.mp h
        exact ⟨answer, net', patches', rfl, hserves, hrest, rfl⟩
      · cases h
    · rintro ⟨answer', net'', patches', heq, hserves, hrest, rfl⟩
      cases heq
      rw [if_pos hserves, hrest]
      rfl

/-- Every range is delivered as a whole, and at its place. -/
theorem map_span_of_deliveries? (h : o.deliveries? net ranges = some patches) :
    patches.map Patch.span = ranges.map DownloadRange.span := by
  induction ranges generalizing net patches with
  | nil => cases h; rfl
  | cons r rest ih =>
    obtain ⟨answer, net', patches', _, hserves, hrest, rfl⟩ := deliveries?_cons.mp h
    rw [List.map_cons, List.map_cons, ih hrest]
    exact congrArg (· :: _) (congrArg (Prod.mk r.first.toNat) (length_wanted hserves))

/-- **An answer that holds a range has its bytes** where they are looked for. -/
theorem wanted_of_holds (h : answer.Holds r file) (hr : r.first.toNat ≤ r.last.toNat)
    (hlast : r.last.toNat < file.length) :
    wanted r answer = (r.slice file).2 ∧ answer.Serves r := by
  have hlen := DownloadRange.length_slice hr hlast
  rcases h with ⟨hstatus, hbody⟩ | ⟨hstatus, hbody⟩
  · have hskip : answer.offset r = 0 := if_pos hstatus
    refine ⟨?_, ?_, ?_⟩
    · rw [wanted, hskip, List.drop_zero, hbody, ← hlen, List.take_length]
    · rw [hstatus]
      decide
    · exact Nat.le_of_eq (by rw [hskip, hbody, hlen, Nat.zero_add])
  · have hskip : answer.offset r = r.first.toNat := by
      rw [Http.Response.offset, hstatus]
      exact if_neg (by decide)
    refine ⟨?_, ?_, ?_⟩
    · rw [wanted, hskip, hbody]
      rfl
    · rw [hstatus]
      decide
    · rw [hskip, hbody]
      change r.first.toNat + (r.last.toNat + 1 - r.first.toNat) ≤ file.length
      omega

/-- **A server that offers a file delivers it**, range by range. -/
theorem deliveries?_of_offers (hweb : Http.isWeb o.url = true)
    (hoffers : Http.Offers net.server o.url file)
    (hin : ∀ r ∈ ranges, r.first.toNat ≤ r.last.toNat ∧ r.last.toNat < file.length) :
    o.deliveries? net ranges = some (ranges.map (·.slice file)) := by
  induction ranges generalizing net with
  | nil => rfl
  | cons r rest ih =>
    obtain ⟨hr, hlast⟩ := hin r List.mem_cons_self
    obtain ⟨answer, net', hrun, hserver, hholds⟩ :=
      Http.exists_fetch_of_offers o.client hweb hoffers hr hlast
    obtain ⟨hwanted, hserves⟩ := wanted_of_holds hholds hr hlast
    refine deliveries?_cons.mpr ⟨answer, net', _, hrun, hserves,
      ih (by rwa [hserver]) fun r' hr' => hin r' (List.mem_cons_of_mem _ hr'), ?_⟩
    rw [List.map_cons, hwanted]
    rfl

end Origin

/-! ### Taking the bytes of an answer -/

namespace Bench

variable {b b' : Bench}

theorem ends_count (b : Bench) {count : Nat} (h : count < UInt64.size) :
    (onWorld (World.count count)).Ends b
      (fun _ b' => HasAt b b.bytes b.1.position b' ∧ b'.2.net = b.2.net ∧
        Advances count b.2.progress b'.2.progress)
      fun cause b' => Carries b b' ∧ cause = .crashed ∧ ¬ HasRoom count b.2.progress := by
  rw [ends_onWorld]
  refine (RangeSync.ends_count b.2 h).mono ?_ ?_
  · rintro _ world ⟨hdisk, hnet, ha⟩
    exact ⟨carries_of_disk b world (hdisk ▸ Kept.refl _) (by rw [hnet]), hnet, ha⟩
  · rintro cause world ⟨hdisk, hnet, hcause, hno⟩
    exact ⟨(carries_of_disk b world (hdisk ▸ Kept.refl _) (by rw [hnet])).carries, hcause, hno⟩

/-- A note that is made in some cases only changes nothing but the log. -/
theorem ends_note_if {p : Prop} [Decidable p] {entry : Entry} {post : PUnit → Bench → Prop}
    {fail : Stop RebuildFault → Bench → Prop} (h : ∀ log, post ⟨⟩ (b.1, { b.2 with log })) :
    (if p then onWorld (World.note entry) else pure ⟨⟩ : BenchAct PUnit).Ends b post fail := by
  split
  · rw [ends_onWorld]
    exact h (b.2.log ++ [entry])
  · exact h b.2.log

/-- The check that all bytes have come that were announced. It changes nothing. -/
theorem ends_assertComplete {post : Unit → Bench → Prop} {fail : Stop RebuildFault → Bench → Prop}
    (hdone : (∀ t, b.2.progress = some t → t.isComplete = true) → post () b)
    (hopen : ∀ t, b.2.progress = some t → t.isComplete ≠ true → fail .crashed b) :
    (onWorld World.assertComplete).Ends b post fail := by
  rw [ends_onWorld, World.assertComplete, ends_bind, ends_get]
  split
  · rename_i hnone
    refine hdone fun t ht => ?_
    cases hnone.symm.trans ht
  · rename_i t ht
    split
    · rename_i hcomplete
      refine hdone fun t' ht' => ?_
      cases ht.symm.trans ht'
      exact hcomplete
    · rename_i hcomplete
      exact hopen t ht hcomplete

end Bench

namespace Origin

variable {r : DownloadRange} {rest ranges : List DownloadRange} {o : Origin} {b : Bench}
  {p p' : Option Tracker}

/-- **Portions are stored** one behind the other, and counted. Counting is what crashes, if bytes
arrive that were not announced. -/
theorem ends_store (b : Bench) (ho : b.IsOpen) (pieces : List (List UInt8))
    (hlt : pieces.flatten.length < UInt64.size) :
    (store pieces).Ends b
      (fun _ b' => b.Wrote pieces.flatten b' ∧ b'.2.net = b.2.net ∧
        Advances pieces.flatten.length b.2.progress b'.2.progress)
      fun cause b' => Bench.Carries b b' ∧ b.Hinders (b.1.position + pieces.flatten.length)
        (HasRoom pieces.flatten.length b.2.progress) cause := by
  -- the induction is on the portions; the output keeps its position behind the last one
  induction pieces generalizing b with
  | nil => exact ⟨.nil (.refl b), rfl, Advances.refl _⟩
  | cons piece rest ih =>
    rw [List.flatten_cons, List.length_append] at hlt ⊢
    unfold store
    rw [ends_bind]
    refine (Bench.ends_write ho piece).mono ?_ ?_
    · rintro _ b₁ ⟨h₁, hp₁⟩
      rw [ends_bind]
      refine (Bench.ends_count b₁ (show piece.length < UInt64.size by omega)).mono ?_ ?_
      · rintro _ b₂ ⟨h₂, hnet₂, ha₂⟩
        have hwrote : b.Wrote (piece ++ []) b₂ := h₁.append (.nil h₂)
        rw [List.append_nil] at hwrote
        have hc := hwrote.carries
        rw [hp₁.progress] at ha₂
        refine (ih b₂ (hc.isOpen ho) (by omega)).mono ?_ ?_
        · rintro _ b₃ ⟨h₃, hnet₃, ha₃⟩
          exact ⟨hwrote.append h₃, hnet₃.trans (hnet₂.trans hp₁.net), ha₂.trans ha₃⟩
        · rintro cause b₃ ⟨h₃, hh⟩
          have hposition := hwrote.position
          exact ⟨hc.trans h₃, hh.mono hc.refuses (by omega) fun hroom => hroom.advance ha₂⟩
      · rintro cause b₂ ⟨h₂, rfl, hno⟩
        rw [hp₁.progress] at hno
        exact ⟨h₁.carries.trans h₂, .crashed fun hroom => hno (hroom.mono (Nat.le_add_right _ _))⟩
    · rintro cause b₁ ⟨h₁, kind, rfl, hr⟩
      exact ⟨h₁.carries, .refused (hr.imp_right fun hfar =>
        Nat.lt_of_lt_of_le hfar (Nat.le_add_right _ _))⟩

/-- **No check fails** while ranges are downloaded: they have lengths, a portion of an answer has
room, and their bytes were announced. -/
structure IsSteady (o : Origin) (ranges : List DownloadRange) (progress : Option Tracker) :
    Prop where
  lengths : ∀ r ∈ ranges, r.length? ≠ none
  portion : o.portion < roomLimit
  room : HasRoom (sumOf (ranges.map (·.span.2))) progress

theorem IsSteady.head (h : o.IsSteady (r :: rest) p) : o.IsSteady [r] p := by
  refine ⟨fun r' hr' => ?_, h.portion, h.room.mono ?_⟩
  · rw [List.mem_singleton.mp hr']
    exact h.lengths r List.mem_cons_self
  · exact Nat.add_le_add_left (Nat.zero_le _) _

theorem IsSteady.tail (h : o.IsSteady (r :: rest) p) (ha : Advances r.span.2 p p') :
    o.IsSteady rest p' :=
  ⟨fun r' hr' => h.lengths r' (List.mem_cons_of_mem _ hr'), h.portion, h.room.advance ha⟩

/-- Skipping and limiting an answer leaves the bytes of the range. -/
theorem flatten_wanted {n : UInt64} (hn : n.toNat = r.span.2) (answer : Http.Response) :
    (Http.limited n.toNat (Http.skipped (answer.offset r) answer.body.pieces)).flatten =
      wanted r answer := by
  rw [Http.flatten_limited, Http.flatten_skipped, hn]
  rfl

/-- **Taking a range out of an answer** is storing what the answer has of it, in portions, and then
that has to be all of it. Nothing is stored if the answer ends before the range begins, or if a
check fails. -/
theorem ends_take_cases {target : UInt64} {answer : Http.Response} {post : UInt64 → Bench → Prop}
    {fail : Stop RebuildFault → Bench → Prop}
    (hshort : answer.body.delivered.length < answer.offset r →
      fail (.failed (.download r target (shortfall r answer))) b)
    (hcrash : r.length? = none ∨ roomLimit ≤ o.portion → fail .crashed b)
    (hstore : ∀ n pieces, n.toNat = r.span.2 → o.portion < roomLimit →
      answer.offset r ≤ answer.body.delivered.length → pieces.flatten = wanted r answer →
      (∀ piece ∈ pieces, 1 ≤ piece.length ∧ piece.length ≤ o.portion) →
      (store pieces).Ends b
        (fun _ b' => (r.span.2 ≤ (wanted r answer).length → post n b') ∧
          ((wanted r answer).length < r.span.2 →
            fail (.failed (.download r target (shortfall r answer))) b')) fail) :
    (o.take r target answer).Ends b post fail := by
  unfold take
  dsimp only
  rw [lead_eq]
  split
  · rename_i hskip
    have hfails := hshort hskip
    rwa [shortfall, if_pos hskip] at hfails
  · rename_i hskip
    rw [ends_bind, ends_orCrash]
    rcases hn : r.length? with _ | n
    · exact hcrash (Or.inl hn)
    · have hlen := DownloadRange.toNat_length? hn
      have hwanted := flatten_wanted hlen answer
      have hportion : 0 < o.portion := by
        unfold portion
        omega
      dsimp only
      split
      · rename_i hroom
        exact hcrash (Or.inr hroom)
      · rename_i hroom
        rw [ends_bind]
        refine (hstore n _ hlen (Nat.not_le.mp hroom) (Nat.not_lt.mp hskip)
          ((Http.flatten_portions hportion _).trans hwanted)
          fun _ => Http.length_of_mem_portions).mono ?_ fun _ _ h => h
        rintro _ b' ⟨hall, hfew⟩
        rw [hwanted, hlen]
        split
        · rename_i hless
          have hfails := hfew hless
          rwa [shortfall, if_neg hskip, ← hlen, UInt64.ofNat_toNat] at hfails
        · rename_i hmore
          exact hall (Nat.not_lt.mp hmore)

/-- **A range is taken out of an answer as a whole**, or the run fails: because the answer is too
short, or because of the output. -/
theorem ends_take (o : Origin) (r : DownloadRange) (target : UInt64) (answer : Http.Response)
    (b : Bench) (ho : b.IsOpen) :
    (o.take r target answer).Ends b
      (fun n b' => n.toNat = r.span.2 ∧
        answer.offset r + r.span.2 ≤ answer.body.delivered.length ∧
        b.Wrote (wanted r answer) b' ∧ b'.2.net = b.2.net ∧
        Advances r.span.2 b.2.progress b'.2.progress)
      fun cause b' => Bench.Carries b b' ∧
        ((∃ fault, cause = .failed (.download r target fault) ∧
            answer.body.delivered.length < answer.offset r + r.span.2) ∨
          b.Hinders (b.1.position + r.span.2) (o.IsSteady [r] b.2.progress) cause) := by
  have hcount : (wanted r answer).length =
      min r.span.2 (answer.body.delivered.length - answer.offset r) := length_wanted_eq_min
  refine ends_take_cases (fun hskip => ?_) (fun hcheck => ?_) fun n pieces hn _ hskip hpieces _ =>
    ?_
  · exact ⟨Bench.Carries.refl b, Or.inl ⟨_, rfl, Nat.lt_add_right _ hskip⟩⟩
  · refine ⟨Bench.Carries.refl b, Or.inr (.crashed fun hs => ?_)⟩
    rcases hcheck with hlength | hroom
    · exact hs.lengths r List.mem_cons_self hlength
    · exact absurd hs.portion (Nat.not_lt.mpr hroom)
  · have hsize := n.toNat_lt_size
    have hends := ends_store b ho pieces (by rw [hpieces]; omega)
    rw [hpieces] at hends
    refine hends.mono ?_ ?_
    · rintro _ b₁ ⟨h₁, hnet₁, ha₁⟩
      refine ⟨fun hall => ?_, fun hfew => ?_⟩
      · have hexact : (wanted r answer).length = r.span.2 := by omega
        rw [hexact] at ha₁
        exact ⟨hn, by omega, h₁, hnet₁, ha₁⟩
      · exact ⟨h₁.carries, Or.inl ⟨_, rfl, by omega⟩⟩
    · rintro cause b₁ ⟨h₁, hh⟩
      exact ⟨h₁, Or.inr (hh.mono rfl (by omega) fun hs => hs.room.mono length_wanted_le)⟩

/-! ### Fetching a range -/

theorem ends_onNet {wrap : Http.SendFault → RebuildFault} {α : Type}
    {act : Act Http.Net Http.SendFault α} {post : α → Bench → Prop}
    {fail : Stop RebuildFault → Bench → Prop} :
    (Bench.onNet wrap act).Ends b post fail ↔
      act.Ends b.2.net (fun a net => post a (b.1, { b.2 with net }))
        fun fault net => fail (.failed (wrap fault)) (b.1, { b.2 with net }) :=
  ends_within

/-- **Fetching a range** is asking for it and taking it out of the answer, if that reports success.
The log may tell then that the server has ignored which range was asked for. -/
theorem ends_fetch_cases {target : UInt64} {post : UInt64 → Bench → Prop}
    {fail : Stop RebuildFault → Bench → Prop}
    (hunsent : ∀ fault net, net.server = b.2.net.server →
      runOn (o.client.fetch o.url (some r.header)) b.2.net = (.error fault, net) →
      fail (.failed (.download r target (.unsent fault))) (b.1, { b.2 with net }))
    (hrefused : ∀ answer net, net.server = b.2.net.server →
      runOn (o.client.fetch o.url (some r.header)) b.2.net = (.ok answer, net) →
      Http.isSuccess answer.status ≠ true →
      fail (.failed (.download r target (.refused answer.status))) (b.1, { b.2 with net }))
    (htake : ∀ answer net log, net.server = b.2.net.server →
      runOn (o.client.fetch o.url (some r.header)) b.2.net = (.ok answer, net) →
      Http.isSuccess answer.status = true →
      (o.take r target answer).Ends (b.1, { b.2 with net, log }) post fail) :
    (o.fetch r target).Ends b post fail := by
  have hserver := Http.ends_follow_server o.client (some r.header) Http.redirectLimit
    o.url.withoutUser b.2.net
  unfold fetch
  rw [ends_bind, ends_onNet]
  refine (hserver.and (ends_self (o.client.fetch o.url (some r.header)) b.2.net)).mono ?_ ?_
  · rintro answer net ⟨hserver, hrun⟩
    split
    · rename_i hfailed
      exact hrefused answer net hserver hrun (by simpa using hfailed)
    · rename_i hsuccess
      rw [ends_when]
      exact Bench.ends_note_if fun log => htake answer net log hserver hrun (by simpa using hsuccess)
  · rintro fault net ⟨hserver, hrun⟩
    exact hunsent fault net hserver hrun

/-- The range is asked for, and the answer serves it. -/
def IsServed (o : Origin) (net : Http.Net) (r : DownloadRange) (answer : Http.Response)
    (net' : Http.Net) : Prop :=
  runOn (o.client.fetch o.url (some r.header)) net = (.ok answer, net') ∧ answer.Serves r

/-- **Fetching a range** lays the bytes of the answer over the output, if the answer serves the
range. It fails if it does not, or because of the output. -/
theorem ends_fetch (o : Origin) (r : DownloadRange) (target : UInt64) (b : Bench)
    (ho : b.IsOpen) :
    (o.fetch r target).Ends b
      (fun n b' => ∃ answer, o.IsServed b.2.net r answer b'.2.net ∧ n.toNat = r.span.2 ∧
        b.Wrote (wanted r answer) b' ∧
        Advances r.span.2 b.2.progress b'.2.progress)
      fun cause b' => Bench.Carries b b' ∧
        ((∃ fault, cause = .failed (.download r target fault) ∧
            ∀ answer net', ¬ o.IsServed b.2.net r answer net') ∨
          b.Hinders (b.1.position + r.span.2) (o.IsSteady [r] b.2.progress) cause) := by
  have hstays (net : Http.Net) (log : List Entry) (hserver : net.server = b.2.net.server) :
      Bench.HasAt b b.bytes b.1.position (b.1, { b.2 with net, log }) :=
    Bench.carries_of_disk b { b.2 with net, log } (Kept.refl _) hserver
  refine ends_fetch_cases (fun fault net hserver hrun => ?_)
    (fun answer net hserver hrun hrefused => ?_) fun answer net log hserver hrun hsuccess => ?_
  · refine ⟨(hstays net _ hserver).carries, Or.inl ⟨_, rfl, fun answer net' hs => ?_⟩⟩
    cases hrun.symm.trans hs.1
  · refine ⟨(hstays net _ hserver).carries, Or.inl ⟨_, rfl, fun answer' net' hs => ?_⟩⟩
    cases hrun.symm.trans hs.1
    exact hrefused (Http.isSuccess_iff.mpr hs.2.1)
  · have h₁ := hstays net log hserver
    refine (o.ends_take r target answer _ (h₁.carries.isOpen ho)).mono ?_ ?_
    · rintro n b₂ ⟨hn, hlong, h₂, hnet₂, ha₂⟩
      refine ⟨answer, ⟨?_, Http.isSuccess_iff.mp hsuccess, hlong⟩, hn, (Bench.Wrote.nil h₁).append h₂, ha₂⟩
      rw [hnet₂]
      exact hrun
    · rintro cause b₂ ⟨h₂, ⟨fault, rfl, hshort⟩ | hh⟩
      · refine ⟨h₁.carries.trans h₂, Or.inl ⟨fault, rfl, fun answer' net' hs => ?_⟩⟩
        -- there is only one answer
        cases hrun.symm.trans hs.1
        exact absurd hs.2.2 (Nat.not_le.mpr hshort)
      · exact ⟨h₁.carries.trans h₂, Or.inr (hh.mono h₁.carries.refuses (Nat.le_refl _) id)⟩

/-! ### Fetching all ranges -/

/-- Nothing is in the way of downloading ranges: they are delivered, and the output takes them. -/
structure CanDownload (o : Origin) (b : Bench) (ranges : List DownloadRange) : Prop where
  obliging : b.2.disk.IsObliging
  target : ∀ r ∈ ranges, r.first.toNat + r.span.2 ≤ fileLimit
  steady : o.IsSteady ranges b.2.progress
  delivers : ∃ patches, o.deliveries? b.2.net ranges = some patches

end Origin

namespace Job

variable {job : Job}

/-- **All ranges are downloaded, one after the other**, and what is delivered for them is laid over
the output; or the run fails. -/
theorem ends_downloadRanges (job : Job) (o : Origin) (b : Bench) (ho : b.IsOpen) (total : UInt64)
    (ranges : List DownloadRange) :
    (job.downloadRanges o total ranges).Ends b
      (fun n b' => ∃ patches, o.deliveries? b.2.net ranges = some patches ∧
        n.toNat = total.toNat + sumOf (ranges.map (·.span.2)) ∧ b.Laid patches b' ∧
        Advances (sumOf (ranges.map (·.span.2))) b.2.progress b'.2.progress)
      fun cause b' => Bench.Carries b b' ∧
        (o.CanDownload b ranges →
          UInt64.size ≤ total.toNat + sumOf (ranges.map (·.span.2))) ∧
        (cause = .crashed → o.IsSteady ranges b.2.progress →
          UInt64.size ≤ total.toNat + sumOf (ranges.map (·.span.2))) := by
  -- the output of one range is where the next one starts from, and the total counts along
  induction ranges generalizing b total with
  | nil =>
    exact ⟨[], rfl, rfl, .nil (.refl b), Advances.refl _⟩
  | cons r rest ih =>
    have hsum : sumOf ((r :: rest).map (·.span.2)) = r.span.2 + sumOf (rest.map (·.span.2)) := rfl
    rw [hsum]
    unfold downloadRanges
    rw [ends_bind]
    refine (Bench.ends_seekTo b r.first.toNat).mono ?_ ?_
    · rintro _ b₁ ⟨h₁, hp₁⟩
      rw [ends_bind]
      refine (o.ends_fetch r job.length b₁ (h₁.carries.isOpen ho)).mono ?_ ?_
      · rintro n b₂ ⟨answer, ⟨hrun, hserves⟩, hn, h₂, ha₂⟩
        rw [hp₁.progress] at ha₂
        rw [hp₁.net] at hrun
        have hlaid := h₂.laid h₁
        have hc := hlaid.carries
        rw [ends_bind, ends_orCrash]
        rcases hw : word? (total.toNat + n.toNat) with _ | next
        · -- the total leaves its 64 bits
          have hlarge := word?_eq_none.mp hw
          exact ⟨hc, fun _ => by omega, fun _ _ => by omega⟩
        · have hnext := toNat_word? hw
          refine (ih b₂ (hc.isOpen ho) next).mono ?_ ?_
          · rintro m b₃ ⟨patches, hrest, hm, h₃, ha₃⟩
            exact ⟨_, Origin.deliveries?_cons.mpr ⟨answer, _, patches, hrun, hserves, hrest, rfl⟩,
              by omega, hlaid.append h₃, ha₂.trans ha₃⟩
          · rintro cause b₃ ⟨h₃, hno, hcrash⟩
            refine ⟨hc.trans h₃, fun hcan => ?_, fun hcause hs => ?_⟩
            · obtain ⟨patches, hdelivers⟩ := hcan.delivers
              obtain ⟨_, _, patches', hrun', _, hrest, _⟩ := Origin.deliveries?_cons.mp hdelivers
              cases hrun.symm.trans hrun'
              have hlarge := hno ⟨hcan.obliging.congr hc.refuses,
                fun r' hr' => hcan.target r' (List.mem_cons_of_mem _ hr'),
                hcan.steady.tail ha₂, patches', hrest⟩
              omega
            · have hlarge := hcrash hcause (hs.tail ha₂)
              omega
      · rintro cause b₂ ⟨h₂, ⟨fault, rfl, hunserved⟩ | hh⟩
        · refine ⟨h₁.carries.trans h₂, fun hcan => ?_, nofun⟩
          obtain ⟨patches, hdelivers⟩ := hcan.delivers
          obtain ⟨answer, net', _, hrun, hserves, _⟩ := Origin.deliveries?_cons.mp hdelivers
          rw [← hp₁.net] at hrun
          exact (hunserved answer net' ⟨hrun, hserves⟩).elim
        · rw [h₁.position, hp₁.progress] at hh
          refine ⟨h₁.carries.trans h₂, fun hcan => ?_, fun hcause hs => ?_⟩
          · exact (hh.not_of_obliging (hcan.obliging.congr h₁.carries.refuses)
              (hcan.target r List.mem_cons_self) hcan.steady.head).elim
          · exact (hh.not_of_crashed hcause hs.head).elim
    · rintro cause b₁ ⟨h₁, kind, rfl, hr⟩
      refine ⟨h₁.carries, fun hcan => ?_, nofun⟩
      rcases hr with hr | hr
      · exact (hcan.obliging kind hr).elim
      · have := hcan.target r List.mem_cons_self
        omega

theorem mapM_length? {ranges : List DownloadRange} :
    (∀ lengths, ranges.mapM DownloadRange.length? = some lengths →
      lengths.map UInt64.toNat = ranges.map (·.span.2)) ∧
    ((∀ r ∈ ranges, r.length? ≠ none) → ∃ lengths, ranges.mapM DownloadRange.length? =
      some lengths) := by
  induction ranges with
  | nil => exact ⟨fun lengths h => by cases h; rfl, fun _ => ⟨[], rfl⟩⟩
  | cons r rest ih =>
    rw [List.mapM_cons]
    rcases hr : r.length? with _ | n
    · exact ⟨nofun, fun hall => absurd hr (hall r List.mem_cons_self)⟩
    · rcases hrest : rest.mapM DownloadRange.length? with _ | ns
      · refine ⟨nofun, fun hall => ?_⟩
        obtain ⟨ns, hns⟩ := ih.2 fun r' hr' => hall r' (List.mem_cons_of_mem _ hr')
        rw [hns] at hrest
        cases hrest
      · refine ⟨fun lengths h => ?_, fun _ => ⟨n :: ns, rfl⟩⟩
        cases h
        rw [List.map_cons, List.map_cons, ih.1 ns hrest, DownloadRange.toNat_length? hr]

/-- The announced number of bytes is the number of downloaded ones. -/
theorem toNat_downloadTotal? {p : Plan} {total : UInt64} (h : p.downloadTotal? = some total) :
    total.toNat = p.downloaded := by
  obtain ⟨lengths, hlengths, hsum⟩ := Option.bind_eq_some_iff.mp h
  rw [toNat_sumWords? hsum, mapM_length?.1 lengths hlengths]
  rfl

/-- Lengths that have a sum are those of ranges that have lengths. -/
theorem length?_ne_none_of_total {p : Plan} {total : UInt64} (h : p.downloadTotal? = some total) :
    ∀ r ∈ p.download, r.length? ≠ none := by
  obtain ⟨lengths, hlengths, -⟩ := Option.bind_eq_some_iff.mp h
  generalize p.download = ranges at hlengths
  induction ranges generalizing lengths with
  | nil => exact nofun
  | cons r rest ih =>
    rw [List.mapM_cons] at hlengths
    obtain ⟨n, hn, hlengths⟩ := Option.bind_eq_some_iff.mp hlengths
    obtain ⟨ns, hns, _⟩ := Option.bind_eq_some_iff.mp hlengths
    refine List.forall_mem_cons.mpr ⟨?_, ih ns hns⟩
    rw [hn]
    exact Option.some_ne_none n

theorem downloadTotal?_isSome {p : Plan} (h : ∀ r ∈ p.download, r.length? ≠ none)
    (hsum : p.downloaded < UInt64.size) : ∃ total, p.downloadTotal? = some total := by
  obtain ⟨lengths, hlengths⟩ := mapM_length?.2 h
  rw [Plan.downloaded, ← mapM_length?.1 lengths hlengths] at hsum
  obtain ⟨total, htotal⟩ := sumWords?_isSome hsum
  exact ⟨total, by rw [Plan.downloadTotal?, hlengths]; exact htotal⟩

/-- The ranges come from nowhere if none is missing, and otherwise from the URL of the job. -/
theorem origin?_eq_ok {origin : Option Origin} (h : job.origin? = .ok origin) :
    job.plan.download = [] ∧ origin = none ∨
      job.plan.download ≠ [] ∧ ∃ client, job.client = .ok client ∧
        origin = some ⟨client, job.url, job.settings.downloadChunkSize.count⟩ := by
  unfold origin? at h
  split at h
  · rename_i hempty
    cases h
    exact Or.inl ⟨List.isEmpty_iff.mp hempty, rfl⟩
  · rename_i hmissing
    rcases hclient : job.client with reason | client
    · rw [hclient] at h
      cases h
    · rw [hclient] at h
      cases h
      exact Or.inr ⟨by simpa using hmissing, client, rfl, rfl⟩

/-- **What is delivered to a job**; nothing if there is nobody to send the requests. -/
def deliveries? (job : Job) (net : Http.Net) : Option (List Patch) :=
  match job.origin? with
  | .error _ => none
  | .ok none => some []
  | .ok (some origin) => origin.deliveries? net job.plan.download

theorem map_span_of_deliveries? {net : Http.Net} {patches : List Patch}
    (h : job.deliveries? net = some patches) :
    patches.map Patch.span = job.plan.download.map DownloadRange.span := by
  unfold deliveries? at h
  split at h
  · cases h
  · rename_i horigin
    cases h
    rcases origin?_eq_ok horigin with ⟨hnil, _⟩ | ⟨_, _, _, hsome⟩
    · rw [hnil]
      rfl
    · cases hsome
  · exact Origin.map_span_of_deliveries? h

/-- **What is copied and what is delivered has the spans of the plan**, if the ranges are in the
seed. -/
theorem map_span_of_isIn {net : Http.Net} {seed : List UInt8} {patches : List Patch}
    (hsource : ∀ r ∈ job.plan.reuse, r.IsIn seed) (h : job.deliveries? net = some patches) :
    (job.plan.reuse.map (·.slice seed) ++ patches).map Patch.span = job.plan.spans := by
  rw [List.map_append, map_span_of_deliveries? h, List.map_map, Plan.spans]
  refine congrArg (· ++ _) (List.map_congr_left fun r hr => ?_)
  exact congrArg (Prod.mk _) (ReuseRange.length_slice_iff.mpr (hsource r hr))

/-- What is copied and what is delivered ends inside of the target. -/
theorem fits_of_isIn {net : Http.Net} {seed : List UInt8} {patches : List Patch}
    (hfor : job.plan.IsFor job.length) (hsource : ∀ r ∈ job.plan.reuse, r.IsIn seed)
    (h : job.deliveries? net = some patches) :
    ∀ patch ∈ job.plan.reuse.map (·.slice seed) ++ patches, patch.Fits job.length.toNat := by
  have hspans := map_span_of_isIn hsource h
  intro patch hpatch
  exact hfor.spans_fit patch.span (hspans ▸ List.mem_map_of_mem hpatch)

/-- **A server that offers a file delivers it** to a job. -/
theorem deliveries?_of_offers {client : Http.Client} {net : Http.Net} {file : List UInt8}
    (hclient : job.client = .ok client) (hweb : Http.isWeb job.url = true)
    (hoffers : Http.Offers net.server job.url file)
    (hin : ∀ r ∈ job.plan.download, r.first.toNat ≤ r.last.toNat ∧ r.last.toNat < file.length) :
    job.deliveries? net = some (job.plan.download.map (·.slice file)) := by
  unfold deliveries? origin?
  rw [hclient]
  by_cases hempty : job.plan.download.isEmpty = true
  · rw [if_pos hempty, List.isEmpty_iff.mp hempty]
    rfl
  · rw [if_neg hempty]
    exact Origin.deliveries?_of_offers hweb hoffers hin

/-- **No check of a job fails while it downloads**: the ranges have lengths, which have a sum, a
portion has room, and nothing has been counted before. -/
structure IsSteady (job : Job) (progress : Option Tracker) : Prop where
  lengths : ∀ r ∈ job.plan.download, r.length? ≠ none
  total : job.plan.downloaded < UInt64.size
  portion : job.settings.downloadChunkSize.count.toNat < Origin.roomLimit
  fresh : ∀ t, progress = some t → t.completed = 0

namespace IsSteady

variable {p : Option Tracker} {announced : UInt64}

/-- The ranges have a total of 64 bits. -/
theorem downloadTotal?_ne_none (h : job.IsSteady p) : job.plan.downloadTotal? ≠ none := by
  obtain ⟨total, htotal⟩ := downloadTotal?_isSome h.lengths h.total
  rw [htotal]
  exact Option.some_ne_none total

/-- The ranges are steady once they are announced, because nothing has been counted before. -/
theorem announce (h : job.IsSteady p) (hannounced : announced.toNat = job.plan.downloaded)
    (client : Http.Client) (url : Url) :
    Origin.IsSteady ⟨client, url, job.settings.downloadChunkSize.count⟩ job.plan.download
      (p.map (·.announce announced)) := by
  refine ⟨h.lengths, ?_, fun t ht => ?_⟩
  · have hchunk := h.portion
    have hlimit : 1 < Origin.roomLimit := by decide
    unfold Origin.portion
    dsimp only
    omega
  · obtain ⟨t', ht', rfl⟩ := Option.map_eq_some_iff.mp ht
    have hzero : (0 : UInt64).toNat = 0 := rfl
    change t'.completed.toNat + job.plan.downloaded ≤ announced.toNat
    exact Nat.le_of_eq (by rw [h.fresh t' ht', hannounced, hzero, Nat.zero_add])

/-- All that was announced has been counted in the end. -/
theorem isComplete (h : job.IsSteady p) (hannounced : announced.toNat = job.plan.downloaded)
    {t : Tracker} (ha : Advances job.plan.downloaded (p.map (·.announce announced)) (some t)) :
    t.isComplete = true := by
  rcases hp : p with _ | t'
  · rw [hp] at ha
    exact ha.elim
  · rw [hp] at ha
    obtain ⟨hcompleted, htotal⟩ := ha
    have hzero : (0 : UInt64).toNat = 0 := rfl
    refine beq_iff_eq.mpr (UInt64.toNat_inj.mp ?_)
    rw [hcompleted, htotal]
    change t'.completed.toNat + job.plan.downloaded = announced.toNat
    rw [h.fresh t' hp, hannounced, hzero, Nat.zero_add]

/-- What was counted up to the total was counted from zero. -/
theorem fresh_of_isComplete {p' : Option Tracker} {count : Nat} (hannounced : announced.toNat = count)
    (ha : Advances count (p.map (·.announce announced)) p')
    (hall : ∀ t, p' = some t → t.isComplete = true) : ∀ t, p = some t → t.completed = 0 := by
  rintro t rfl
  rcases p' with _ | t'
  · exact ha.elim
  · obtain ⟨hcompleted, htotal⟩ := ha
    have hend : t'.completed = t'.total := beq_iff_eq.mp (hall t' rfl)
    rw [hend, htotal] at hcompleted
    change announced.toNat = t.completed.toNat + count at hcompleted
    refine UInt64.toNat_inj.mp ?_
    change t.completed.toNat = 0
    omega

end IsSteady

/-- Nothing is in the way of downloading what a plan needs. -/
structure CanDownloadAll (job : Job) (b : Bench) (patches : List Patch) : Prop where
  obliging : b.2.disk.IsObliging
  target : ∀ r ∈ job.plan.download, r.first.toNat + r.span.2 ≤ fileLimit
  steady : job.IsSteady b.2.progress
  delivers : job.deliveries? b.2.net = some patches

/-- **The bytes of a download are announced, then its ranges are fetched**, and in the end all bytes
that were announced have to be there. -/
theorem ends_downloadAll_cases {o : Origin} {b : Bench} {post : UInt64 → Bench → Prop}
    {fail : Stop RebuildFault → Bench → Prop}
    (hnone : job.plan.downloadTotal? = none → fail .crashed b)
    (hranges : ∀ announced, job.plan.downloadTotal? = some announced →
      (job.downloadRanges o 0 job.plan.download).Ends
        (b.1, { b.2 with progress := b.2.progress.map (·.announce announced) })
        (fun n b' => ((∀ t, b'.2.progress = some t → t.isComplete = true) → post n b') ∧
          ∀ t, b'.2.progress = some t → t.isComplete ≠ true → fail .crashed b') fail) :
    (job.downloadAll (some o)).Ends b post fail := by
  unfold downloadAll
  rw [ends_bind, ends_orCrash]
  rcases htotal : job.plan.downloadTotal? with _ | announced
  · exact hnone htotal
  · dsimp only
    rw [ends_bind, Bench.ends_onWorld, World.announce, ends_modify, ends_bind]
    refine (hranges announced htotal).mono ?_ fun _ _ h => h
    rintro n b' ⟨hdone, hopen⟩
    exact ends_bind.mpr (Bench.ends_assertComplete hdone hopen)

/-- **What downloading everything does**: what is delivered is laid over the output. -/
theorem ends_downloadAll (job : Job) {origin : Option Origin} (horigin : job.origin? = .ok origin)
    (b : Bench) (ho : b.IsOpen) :
    (job.downloadAll origin).Ends b
      (fun n b' => ∃ patches, job.deliveries? b.2.net = some patches ∧
        n.toNat = job.plan.downloaded ∧ b.Laid patches b')
      fun cause b' => Bench.Carries b b' ∧ (∀ patches, ¬ job.CanDownloadAll b patches) ∧
        (cause = .crashed → ¬ job.IsSteady b.2.progress) := by
  rcases origin?_eq_ok horigin with ⟨hnil, rfl⟩ | ⟨_, client, _, rfl⟩
  · exact ⟨[], by rw [deliveries?, horigin], by rw [Plan.downloaded, hnil]; rfl, .nil (.refl b)⟩
  · have hdeliveries : job.deliveries? b.2.net =
        Origin.deliveries? ⟨client, job.url, job.settings.downloadChunkSize.count⟩ b.2.net
          job.plan.download := by
      rw [deliveries?, horigin]
    refine ends_downloadAll_cases (fun htotal => ?_) fun announced htotal => ?_
    · have hno : ¬ job.IsSteady b.2.progress := fun hs => hs.downloadTotal?_ne_none htotal
      exact ⟨Bench.Carries.refl b, fun patches hc => hno hc.steady, fun _ => hno⟩
    · have hannounced := toNat_downloadTotal? htotal
      have h₁ := Bench.carries_of_disk b
        { b.2 with progress := b.2.progress.map (·.announce announced) } (Kept.refl _) rfl
      refine (job.ends_downloadRanges _ _ (h₁.carries.isOpen ho) 0 job.plan.download).mono ?_ ?_
      · rintro n b₂ ⟨patches, hdelivers, hn, h₂, ha₂⟩
        refine ⟨fun _ => ?_, fun t ht hopen => ?_⟩
        · exact ⟨patches, hdeliveries.trans hdelivers, hn.trans (Nat.zero_add _),
            (Bench.Laid.nil h₁).append h₂⟩
        · -- bytes are missing, but all were counted
          rw [ht] at ha₂
          have hno : ¬ job.IsSteady b.2.progress := fun hs => hopen (hs.isComplete hannounced ha₂)
          exact ⟨h₁.carries.trans h₂.carries, fun patches hc => hno hc.steady, fun _ => hno⟩
      · rintro cause b₂ ⟨h₂, hno, hcrash⟩
        have hshort (hs : job.IsSteady b.2.progress) :
            ¬ UInt64.size ≤ (0 : UInt64).toNat + sumOf (job.plan.download.map (·.span.2)) := by
          have htotal := hs.total
          have hzero : (0 : UInt64).toNat = 0 := rfl
          rw [Plan.downloaded] at htotal
          omega
        refine ⟨h₁.carries.trans h₂, fun patches hc => ?_, fun hcause hs => ?_⟩
        · exact hshort hc.steady (hno ⟨hc.obliging, hc.target,
            hc.steady.announce hannounced client job.url, patches,
            hdeliveries.symm.trans hc.delivers⟩)
        · exact hshort hs (hcrash hcause (hs.announce hannounced client job.url))

end Job
end RangeSync
