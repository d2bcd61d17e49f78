import RangeSync.Proofs.Dating

/-!
# How a digest is spelled

A descriptor may spell its digest with capital letters: what is taken for a digest is forty
hexadecimal digits of either case. But an output is judged by comparing texts, and the digest of an
output is printed in lowercase. So the digests that are taken and the digests that can be matched
are not the same, and what makes the difference is the case of the letters
(`RangeSync.Digest.isMatchable_iff`).

`RangeSync.Text.denoted?` reads the bytes that hexadecimal digits of either case denote. If the
SHA-1 of an output is what the digest of the descriptor denotes, the output is never refused for its
digest as long as that is spelled in lowercase (`RangeSync.SyncTask.Briefing.Approves`). With a
capital letter in it, the digest is one that no output has: **the right output is refused, and under
the strict policy it is thrown away** (`RangeSync.SyncTask.Briefing.Rejects`).
-/

namespace RangeSync

open Act Disk

/-! ### Hexadecimal digits -/

namespace Text

/-- The bytes that hexadecimal digits of either case denote, two digits each. -/
def denoted? : List Char → Option (List UInt8)
  | [] => some []
  | [_] => none
  | high :: low :: rest => do
    let h ← hexValue? high
    let l ← hexValue? low
    let bytes ← denoted? rest
    return UInt8.ofNat (16 * h + l) :: bytes

/-- A decimal digit, or one of the letters that stand for the other hexadecimal digits, in
lowercase. -/
def IsLowercaseDigit (c : Char) : Prop :=
  ('0' ≤ c ∧ c ≤ '9') ∨ ('a' ≤ c ∧ c ≤ 'f')

variable {c : Char} {n : Nat} {digits : List Char} {bytes : List UInt8}

theorem isLowercaseDigit_iff : IsLowercaseDigit c ↔
    (48 ≤ c.toNat ∧ c.toNat ≤ 57) ∨ (97 ≤ c.toNat ∧ c.toNat ≤ 102) :=
  Iff.rfl

/-- A lowercase digit is a digit. -/
theorem IsLowercaseDigit.isHexDigit (h : IsLowercaseDigit c) : isHexDigit c = true := by
  obtain ⟨n, hn⟩ : ∃ n, hexValue? c = some n := by
    rcases isLowercaseDigit_iff.mp h with hdigit | hletter
    · exact ⟨_, hexValue?_eq_some_iff.mpr (Or.inl ⟨hdigit.1, hdigit.2, rfl⟩)⟩
    · exact ⟨_, hexValue?_eq_some_iff.mpr (Or.inr (Or.inl ⟨hletter.1, hletter.2, rfl⟩))⟩
  rw [Text.isHexDigit, hn]
  rfl

/-- **A digit is printed as it was spelled** if it was spelled in lowercase. -/
theorem hexDigit_eq_iff (h : hexValue? c = some n) : hexDigit n = c ↔ IsLowercaseDigit c := by
  constructor
  · rintro rfl
    exact Digest.hexDigit_lowercase n (hexValue?_lt h)
  · intro hlower
    have hvalue := hexValue?_eq_some_iff.mp h
    unfold hexDigit
    rcases isLowercaseDigit_iff.mp hlower with hdigit | hletter
    · rw [if_pos (by omega), show 48 + n = c.toNat by omega, Char.ofNat_toNat]
    · rw [if_neg (by omega), show 87 + n = c.toNat by omega, Char.ofNat_toNat]

theorem denoted?_cons {high low : Char} :
    denoted? (high :: low :: digits) = some bytes ↔ ∃ h l rest, hexValue? high = some h ∧
      hexValue? low = some l ∧ denoted? digits = some rest ∧
      bytes = UInt8.ofNat (16 * h + l) :: rest := by
  simp only [denoted?, Option.bind_eq_bind, Option.bind_eq_some_iff, Option.pure_def,
    Option.some.injEq]
  grind

/-- **An even number of hexadecimal digits denotes bytes**, half as many. -/
theorem exists_denoted (h : ∀ c ∈ digits, isHexDigit c = true)
    (hlength : digits.length = 2 * n) :
    ∃ bytes, denoted? digits = some bytes ∧ bytes.length = n := by
  induction digits using denoted?.induct generalizing n with
  | case1 =>
    rw [List.length_nil] at hlength
    exact ⟨[], rfl, by rw [List.length_nil]; omega⟩
  | case2 c =>
    rw [List.length_singleton] at hlength
    omega
  | case3 high low rest ih =>
    rw [List.length_cons, List.length_cons] at hlength
    obtain ⟨a, ha⟩ := Option.isSome_iff_exists.mp (h high (.head _))
    obtain ⟨b, hb⟩ := Option.isSome_iff_exists.mp (h low (.tail _ (.head _)))
    obtain ⟨bytes, hbytes, hcount⟩ := @ih (n - 1) (fun c hc => h c (.tail _ (.tail _ hc)))
      (by omega)
    refine ⟨_, denoted?_cons.mpr ⟨a, b, bytes, ha, hb, hbytes, rfl⟩, ?_⟩
    rw [List.length_cons]
    omega

/-- **What digits denote is printed as they were spelled** if they were spelled in lowercase. -/
theorem hex_eq_iff (h : denoted? digits = some bytes) :
    hex bytes = String.ofList digits ↔ ∀ c ∈ digits, IsLowercaseDigit c := by
  rw [hex, String.ofList_inj]
  induction digits using denoted?.induct generalizing bytes with
  | case1 =>
    cases h
    exact iff_of_true rfl (List.forall_mem_nil _)
  | case2 c => cases h
  | case3 high low rest ih =>
    obtain ⟨a, b, tail, ha, hb, htail, rfl⟩ := denoted?_cons.mp h
    have ha' := hexValue?_lt ha
    have hb' := hexValue?_lt hb
    have hbyte : (UInt8.ofNat (16 * a + b)).toNat = 16 * a + b :=
      UInt8.toNat_ofNat_of_lt' (show _ < 256 by omega)
    rw [List.flatMap_cons, hbyte, show (16 * a + b) / 16 = a by omega,
      show (16 * a + b) % 16 = b by omega, List.forall_mem_cons, List.forall_mem_cons, ← ih htail,
      ← hexDigit_eq_iff ha, ← hexDigit_eq_iff hb, List.cons_append, List.cons_append,
      List.nil_append, List.cons_eq_cons, List.cons_eq_cons]
end Text

namespace Digest

variable {digest : String} {value : List UInt8}

/-- **A text that can be matched**: the digest of an output may be printed like that. -/
def IsMatchable (digest : String) : Prop :=
  ∃ value : List UInt8, value.length = 20 ∧ Text.hex value = digest

/-- A text that is taken for a digest denotes twenty bytes. -/
theorem exists_value (h : Descriptor.isDigest digest = true) :
    ∃ value, value.length = 20 ∧ Text.denoted? digest.toList = some value := by
  unfold Descriptor.isDigest at h
  rw [Bool.and_eq_true, beq_iff_eq, List.all_eq_true] at h
  obtain ⟨value, hvalue, hlength⟩ := Text.exists_denoted h.2 (h.1.trans (by decide : 40 = 2 * 20))
  exact ⟨value, hlength, hvalue⟩

theorem IsCanonical.isDigest (h : IsCanonical digest) : Descriptor.isDigest digest = true := by
  unfold Descriptor.isDigest
  rw [Bool.and_eq_true, beq_iff_eq, List.all_eq_true]
  exact ⟨h.1, fun c hc => Text.IsLowercaseDigit.isHexDigit (h.2 c hc)⟩

/-- What a digest denotes is printed as the digest if that is spelled in lowercase. -/
theorem IsCanonical.hex_eq (h : IsCanonical digest)
    (hvalue : Text.denoted? digest.toList = some value) : Text.hex value = digest := by
  have heq := (Text.hex_eq_iff hvalue).mpr h.2
  rwa [String.ofList_toList] at heq

/-- **The texts that can be matched** are the digests in lowercase. -/
theorem isMatchable_iff : IsMatchable digest ↔ IsCanonical digest := by
  constructor
  · rintro ⟨value, hlength, rfl⟩
    exact isCanonical_hex hlength
  · intro h
    obtain ⟨value, hlength, hvalue⟩ := exists_value h.isDigest
    exact ⟨value, hlength, h.hex_eq hvalue⟩

/-- An output with another spelling of its digest does not exist. -/
theorem sha1Hex_ne_of_not_isCanonical (h : ¬ IsCanonical digest) (bytes : List UInt8) :
    sha1Hex bytes ≠ digest := by
  rintro rfl
  exact h (isCanonical_sha1Hex bytes)

end Digest

/-! ### Outputs that have the digest -/

namespace SyncTask.Briefing

variable {task : SyncTask} {w w₁ : World} {b : Briefing task w}
  {filled : UInt64 × UInt64 × Writer} {bytes : List UInt8}

/-- What the job compares with is the digest of the descriptor. -/
theorem eq_of_expected {expected : String} (h : b.job.expected = some expected) :
    expected = b.order.digest := by
  rw [b.expected_eq] at h
  split at h
  · exact (Option.some.inj h).symm
  · cases h

/-- **An output with the digest of the descriptor is finished**, or the system refuses something;
and an output of its own is in its place even then. -/
theorem ends_finish_of_match (hfill : runOn b.job.fill b.start = (.ok filled, w₁))
    (heq : Digest.sha1Hex (Bench.bytes (filled.2.2, w₁)) = b.order.digest) :
    b.job.finish.Ends (filled.2.2, w₁)
      (fun path b' => path = b.job.path ∧ b.Placed (Bench.bytes (filled.2.2, w₁)) b'.2)
      fun cause b' => (∃ kind, cause = .failed (.files kind)) ∧
        ∀ path, b.job.destination = .file path →
          b.Placed (Bench.bytes (filled.2.2, w₁)) b'.2 := by
  have hfiles := b.job.ends_finish_blames (filled.2.2, w₁)
  have hcause {cause : Stop RebuildFault} (h : (∃ kind, cause = .failed (.files kind)) ∨
      b.job.Blames (Bench.bytes (filled.2.2, w₁)) cause) :
      ∃ kind, cause = .failed (.files kind) := by
    refine h.resolve_right ?_
    rintro ⟨expected, he, hne, _⟩
    exact hne (heq.trans (eq_of_expected he).symm)
  rcases hdest : b.job.destination with out | _
  · obtain ⟨hpath, place, hleads, hplaced⟩ := leads_of_fill hdest hfill
    refine (hfiles.and (b.job.ends_finish_of_site _ hleads)).mono ?_ ?_
    · rintro path b' ⟨_, rfl, hstays, _⟩
      exact ⟨hpath, hplaced b'.2 hstays⟩
    · rintro cause b' ⟨hwhy, hfails, _⟩
      obtain ⟨kind, rfl⟩ := hcause hwhy
      refine ⟨⟨kind, rfl⟩, fun _ _ => ?_⟩
      rcases hfails with ⟨⟨position, hat⟩, _⟩ | ⟨_, _, _, _, _, _, hdigest⟩
      · exact hplaced b'.2 (hleads.staysAt hat)
      · cases hdigest
  · obtain ⟨hpath, hsite, hplaced⟩ := staged_of_fill hdest hfill
    refine (hfiles.and (b.job.ends_finish_of_staged _ hsite)).mono ?_ ?_
    · rintro path b' ⟨_, rfl, hcommits, _⟩
      exact ⟨hpath, hplaced b'.2 hcommits⟩
    · rintro cause b' ⟨hwhy, _⟩
      exact ⟨hcause hwhy, nofun⟩

/-- A cause that is not the digest. -/
def Spares (cause : Stop SyncFault) : Prop :=
  ∀ expected actual, cause ≠ .failed (.rebuild (.digest expected actual))

/-- **The end of a task does not fail because of a digest that the output has.** Where it is compared
by way of the path, the path leads to the output or to nothing. -/
theorem ends_conclude_of_match (hfill : runOn b.job.fill b.start = (.ok filled, w₁))
    (heq : Digest.sha1Hex (Bench.bytes (filled.2.2, w₁)) = b.order.digest) :
    b.conclude.Ends b.start (fun _ w₂ => b.Placed (Bench.bytes (filled.2.2, w₁)) w₂)
      fun cause w₂ => Spares cause ∧ ∀ path, b.job.destination = .file path →
        b.Placed (Bench.bytes (filled.2.2, w₁)) w₂ := by
  refine b.ends_conclude ?_
  rw [Job.run_eq, ends_bind, ends_of_ok hfill]
  refine (Job.ends_close (ends_finish_of_match hfill heq)).mono ?_ ?_
  · rintro summary w₂ ⟨_, _, _, _, _, hpath, hplaced⟩
    split
    · exact hplaced
    · rw [hpath]
      refine (ends_confirm b.job.path b.order.digest w₂).mono ?_ ?_
      · exact fun _ w₃ h => hplaced.kept h.1
      · rintro cause w₃ ⟨hk, hwhy, _⟩
        refine ⟨fun expected actual hdigest => ?_, fun _ _ => hplaced.kept hk⟩
        rcases hwhy with ⟨kind, rfl⟩ | ⟨place, e, hw, hne, _⟩
        · cases hdigest
        · have hcuts : ¬ b.Cuts := fun hc => hplaced.lost hc place e hw
          obtain ⟨place', hfile⟩ := hplaced.found hcuts
          obtain ⟨rfl, -⟩ := hfile.eq_of_walk hw
          rw [hfile.bytesAt] at hne
          exact hne heq
  · rintro cause w₂ ⟨writer, ⟨kind, rfl⟩, hplaced⟩
    exact ⟨nofun, hplaced⟩

/-- **The digest of the descriptor lets an output pass**: the task does not fail because of it, an
output that is put into its place is left there, and so is an output of its own however the task
ends; and if nothing is in the way of the commit, the task has an outcome. -/
structure Approves (b : Briefing task w) (bytes : List UInt8) : Prop where
  spared : ∀ cause w', runOn task.run w = (.error cause, w') → Spares cause
  delivered : ∀ o w', runOn task.run w = (.ok o, w') → ¬ b.Cuts → b.Keeps bytes w'
  kept : ∀ path, b.job.destination = .file path → b.Keeps bytes (runOn task.run w).2
  answers : b.CanPublish →
    (task.settings.reconstruction.integrityPolicy = .advisory → ¬ b.Cuts) →
      ∃ o w', runOn task.run w = (.ok o, w')

/-- **The digest of the descriptor lets no output pass**: the task has no outcome; if nothing is in
the way of the commit, it fails because of the digest, and under the strict policy the output is
discarded. -/
structure Rejects (b : Briefing task w) (bytes : List UInt8) : Prop where
  unanswered : ∀ o w', runOn task.run w ≠ (.ok o, w')
  blamed : b.CanPublish →
    (task.settings.reconstruction.integrityPolicy = .advisory → ¬ b.Cuts) →
      ∃ w', runOn task.run w = (.error (.failed (.rebuild (.digest b.order.digest
          (Digest.sha1Hex bytes)))), w') ∧
        (task.settings.reconstruction.integrityPolicy = .strict → b.Discards w')

theorem under_of_policy {policy : IntegrityPolicy}
    (h : task.settings.reconstruction.integrityPolicy = policy) : task.under policy = task := by
  subst h
  rfl

/-- **An output with the digest of the descriptor passes.** -/
theorem approves_of_match (hfill : runOn b.job.fill b.start = (.ok filled, w₁))
    (heq : Digest.sha1Hex (Bench.bytes (filled.2.2, w₁)) = b.order.digest) :
    b.Approves (Bench.bytes (filled.2.2, w₁)) := by
  have hends := ends_conclude_of_match hfill heq
  have hrun := b.runOn_run
  rcases hconclude : runOn b.conclude b.start with ⟨result, w₂⟩
  rw [hconclude] at hrun
  have hr := b.fetched.released_released w₂
  constructor
  case spared =>
    intro cause w' herror
    obtain ⟨rfl, _⟩ := Prod.mk.inj (hrun.symm.trans herror)
    exact (hends.of_error hconclude).1
  case delivered =>
    intro o w' hok hcuts
    obtain ⟨rfl, rfl⟩ := Prod.mk.inj (hrun.symm.trans hok)
    exact (hends.of_ok hconclude).keeps hcuts hr
  case kept =>
    intro path hdest
    have hcuts : ¬ b.Cuts := fun hc => nomatch hdest.symm.trans hc.1
    have hplaced := (hends.mono (fun _ _ h => h) fun _ _ h => h.2 path hdest).state
      (P := fun w₂ : World => b.Placed (Bench.bytes (filled.2.2, w₁)) w₂)
    rw [hconclude] at hplaced
    rw [hrun]
    exact hplaced.keeps hcuts hr
  case answers =>
    intro hpublish hcuts
    obtain ⟨settled, hsettle, hwilling, _, hplaced⟩ := exists_settled hpublish hfill
    cases hpolicy : task.settings.reconstruction.integrityPolicy with
    | strict =>
      obtain ⟨ws, hstrict, _⟩ := exists_compared hpublish hfill heq hsettle
      rw [under_of_policy hpolicy] at hstrict
      exact ⟨_, _, hstrict⟩
    | advisory =>
      obtain ⟨place, hfile⟩ := hplaced.found (hcuts hpolicy)
      obtain ⟨wa, hadvisory, _⟩ := exists_confirmed hfill heq hsettle hwilling hfile
      rw [under_of_policy hpolicy] at hadvisory
      exact ⟨_, _, hadvisory⟩

/-- **No output passes** if the digest of the descriptor is not spelled in lowercase. -/
theorem rejects_of_not_isCanonical (h : ¬ Digest.IsCanonical b.order.digest)
    (hfill : runOn b.job.fill b.start = (.ok filled, w₁)) :
    b.Rejects (Bench.bytes (filled.2.2, w₁)) := by
  have hne := Digest.sha1Hex_ne_of_not_isCanonical h
  constructor
  case unanswered =>
    intro o w' hrun
    obtain ⟨b', bytes, hdelivers⟩ := (task.ends_run_delivers w).of_ok hrun
    rw [b'.unique b] at hdelivers
    exact hne bytes (hdelivers.sha1.trans hdelivers.digest)
  case blamed =>
    intro hpublish hcuts
    cases hpolicy : task.settings.reconstruction.integrityPolicy with
    | strict =>
      obtain ⟨ws, hstrict, _, hdiscards⟩ := exists_discarded hpublish hfill (hne _)
      rw [under_of_policy hpolicy] at hstrict
      exact ⟨_, hstrict, fun _ => hdiscards⟩
    | advisory =>
      obtain ⟨wa, hadvisory, _⟩ := exists_refused hpublish (hcuts hpolicy) hfill (hne _)
      rw [under_of_policy hpolicy] at hadvisory
      exact ⟨_, hadvisory, nofun⟩

end SyncTask.Briefing

/-! ### What a descriptor can ask for -/

namespace SyncTask

open Briefing

/-- **A digest can be satisfied if it is spelled in lowercase.** A text that is given as the digest
can be matched if, and only if, it is taken for a digest and has no capital letters. If the SHA-1 of
a filled output is what the digest denotes, a digest in lowercase lets the output pass, and any
other one lets no output pass. -/
theorem satisfies_lowercase_digest (task : SyncTask) (w : World) :
    (∀ (d : Descriptor) (digest : String), d.text? "SHA-1" = some digest →
      (Digest.IsMatchable digest ↔
        d.digest = .ok digest ∧ ∀ c ∈ digest.toList, Text.IsLowercaseDigit c)) ∧
    ∀ (b : Briefing task w) (filled : UInt64 × UInt64 × Writer) (w₁ : World),
      runOn b.job.fill b.start = (.ok filled, w₁) →
      Text.denoted? b.order.digest.toList =
        some (Digest.sha1 (Bench.bytes (filled.2.2, w₁))) →
      ((∀ c ∈ b.order.digest.toList, Text.IsLowercaseDigit c) →
        b.Approves (Bench.bytes (filled.2.2, w₁))) ∧
      (¬ (∀ c ∈ b.order.digest.toList, Text.IsLowercaseDigit c) →
        b.Rejects (Bench.bytes (filled.2.2, w₁))) := by
  constructor
  · intro d digest htext
    rw [Digest.isMatchable_iff]
    have hdigest : d.digest = .ok digest ↔ Descriptor.isDigest digest = true := by
      rw [Descriptor.digest, htext]
      dsimp only
      split
      · rename_i hyes
        exact iff_of_true rfl hyes
      · rename_i hno
        refine iff_of_false (fun herror => ?_) hno
        cases herror
    rw [hdigest]
    constructor
    · exact fun h => ⟨h.isDigest, h.2⟩
    · rintro ⟨hyes, hlower⟩
      unfold Descriptor.isDigest at hyes
      rw [Bool.and_eq_true, beq_iff_eq] at hyes
      exact ⟨hyes.1, hlower⟩
  · intro b filled w₁ hfill hdenotes
    constructor
    · intro hlower
      refine Briefing.approves_of_match hfill ?_
      have heq := (Text.hex_eq_iff hdenotes).mpr hlower
      rwa [String.ofList_toList] at heq
    · exact fun hcapital => Briefing.rejects_of_not_isCanonical (fun h => hcapital h.2) hfill

/-- What the digest of the three bytes denotes, in either spelling. -/
theorem denoted?_ofThreeBytes : ∀ digest ∈ [Digest.ofThreeBytes, Digest.ofThreeBytesInCapitals],
    Text.denoted? digest.toList = some (Digest.sha1 [99, 100, 101]) := by
  decide +kernel

/-- **A digest in lowercase is satisfied**: the seed is replaced by an output that has it. -/
theorem satisfies_lowercase_digest_renewing :
    ∃ (b : Briefing renewing (.withDated Digest.ofThreeBytes))
        (filled : UInt64 × UInt64 × Writer) (w₁ : World) (o : Outcome) (w' : World),
      runOn b.job.fill b.start = (.ok filled, w₁) ∧
      Text.denoted? b.order.digest.toList =
        some (Digest.sha1 (Bench.bytes (filled.2.2, w₁))) ∧
      (∀ c ∈ b.order.digest.toList, Text.IsLowercaseDigit c) ∧
      runOn renewing.run (.withDated Digest.ofThreeBytes) = (.ok o, w') ∧
      b.Keeps (Bench.bytes (filled.2.2, w₁)) w' := by
  obtain ⟨b, filled, w₁, hfill, hbytes, hdigest, _, _, hpublish, hcuts⟩ :=
    exists_filled_dated Digest.isDigest_ofThreeBytes .strict
  have hdenotes : Text.denoted? b.order.digest.toList =
      some (Digest.sha1 (Bench.bytes (filled.2.2, w₁))) := by
    rw [hdigest, hbytes]
    exact denoted?_ofThreeBytes _ List.mem_cons_self
  have hlower : ∀ c ∈ b.order.digest.toList, Text.IsLowercaseDigit c := by
    rw [hdigest, ← Digest.sha1Hex_threeBytes]
    exact (Digest.isCanonical_sha1Hex _).2
  have happroves :=
    ((satisfies_lowercase_digest renewing _).2 b filled w₁ hfill hdenotes).1 hlower
  obtain ⟨o, w', hrun⟩ := happroves.answers hpublish fun _ => hcuts
  exact ⟨b, filled, w₁, o, w', hfill, hdenotes, hlower, hrun, happroves.delivered o w' hrun hcuts⟩

/-- **Spelled in capital letters, the same digest refuses the same output**, and it is discarded. -/
theorem capitals_are_refused :
    ∃ (b : Briefing renewing (.withDated Digest.ofThreeBytesInCapitals))
        (filled : UInt64 × UInt64 × Writer) (w₁ : World) (actual : String) (w' : World),
      (Descriptor.dated Digest.ofThreeBytesInCapitals).digest = .ok b.order.digest ∧
      runOn b.job.fill b.start = (.ok filled, w₁) ∧
      Text.denoted? b.order.digest.toList =
        some (Digest.sha1 (Bench.bytes (filled.2.2, w₁))) ∧
      runOn renewing.run (.withDated Digest.ofThreeBytesInCapitals) =
        (.error (.failed (.rebuild (.digest b.order.digest actual))), w') ∧
      b.Discards w' := by
  obtain ⟨b, filled, w₁, hfill, hbytes, hdigest, _, _, hpublish, hcuts⟩ :=
    exists_filled_dated Digest.isDigest_ofThreeBytesInCapitals .strict
  have hcapital : ¬ Digest.IsCanonical b.order.digest := by
    rw [hdigest]
    exact fun h => absurd (h.2 'D' (by decide)) (by decide)
  obtain ⟨w', hrun, hdiscards⟩ :=
    (rejects_of_not_isCanonical hcapital hfill).blamed hpublish fun _ => hcuts
  refine ⟨b, filled, w₁, _, w', ?_, hfill, ?_, hrun, hdiscards rfl⟩
  · rw [hdigest]
    exact Descriptor.digest_dated Digest.isDigest_ofThreeBytesInCapitals
  · rw [hdigest, hbytes]
    exact denoted?_ofThreeBytes _ (by decide)

end SyncTask
end RangeSync
