import RangeSync.Proofs.Delivery
import RangeSync.Proofs.Folder

/-!
# Round trips

If everything is as it should be, a task brings the file of the server to the place of its output.
Four parties have to agree on that file: the descriptor gives its length and its digest
(`RangeSync.SyncTask.Finds`), the plan covers it and reuses only what the seed has in common with it
(`RangeSync.Plan.Fits`), the server offers it (`RangeSync.Http.Offers`), and the disk does what it is
told. Then **a task restores the file** (`RangeSync.SyncTask.restores`), whatever the policy, the
sizes of its buffers and the answers that the server chooses to give.

The heart of it is that patches that agree with a file and cover it make that file, in whatever order
they are laid and however they overlap (`RangeSync.Plan.Fits.patched_eq`). Everything else is to see
that nothing is in the way of the task.
-/

namespace RangeSync

open Act Disk

/-! ### Tasks that find what they need -/

namespace SyncTask

variable {task : SyncTask} {w found : World} {fetched : Fetched} {plan : Plan} {url : Url}
  {seed file : List UInt8} {place : Location}

/-- **A task finds the descriptor of a file**: it can be had, it can be read, and it gives the length
and the digest of the file and a URL. -/
structure Finds (task : SyncTask) (w : World) (fetched : Fetched) (found : World) (url : Url)
    (file : List UInt8) : Prop where
  finds : ∃ client, Http.Client.named task.settings.client.userAgent = .ok client ∧
    runOn (Fetched.ofLocation client task.location) w = (.ok fetched, found)
  gives : ∃ place content d rest text, found.disk.FileAt fetched.path place content ∧
    Descriptor.read content = .ok (d, rest) ∧ d.length = .ok (UInt64.ofNat file.length) ∧
    d.digest = .ok (Digest.sha1Hex file) ∧ d.url = .ok text ∧
    Descriptor.resolve fetched.url.toText text = .ok url

/-- The planner answers with a plan, once the descriptor has been read. -/
def Plans (task : SyncTask) (fetched : Fetched) (found : World) (plan : Plan) : Prop :=
  (runOn (task.planner.plan fetched.path task.seed) (runOn (order fetched) found).2).1 = .ok plan

/-- A file can be created where the output is to go, and that is not the temporary file that the
descriptor is kept in. -/
def CanPlace (task : SyncTask) (w : World) (fetched : Fetched) (found : World) : Prop :=
  ∀ path, task.output = some path → w.disk.CanCreate path ∧
    ∀ temporary, fetched.temporary = some temporary → found.disk.placeOf? path ≠ some temporary

/-- **The file is restored**: it is where the outcome says, and the outcome counts the bytes and the
requests that the plan asked for. If the path of the output led to the seed in the beginning, or if
there is no such path, the file is in the place of the seed; if it led elsewhere, the file is
there. -/
structure Restored (task : SyncTask) (w : World) (plan : Plan) (file : List UInt8) (o : Outcome)
    (d : Disk) : Prop where
  file : ∃ place, d.FileAt o.summary.path place file
  replaced : (∀ path, task.output = some path → w.disk.placeOf? path = w.disk.placeOf? task.seed) →
    o.summary.path = task.seed
  apart : ∀ path, task.output = some path → w.disk.placeOf? path ≠ w.disk.placeOf? task.seed →
    o.summary.path = path
  reused : o.summary.reused.toNat = plan.reused
  downloaded : o.summary.downloaded.toNat = plan.downloaded
  requests : o.summary.requests = plan.download.length

namespace Briefing

variable {b : Briefing task w}

/-- The path of a seed that is a file does not retrace its end. -/
theorem not_cuts_of_fileAt (hseed : w.disk.FileAt task.seed place seed) : ¬ b.Cuts := by
  obtain ⟨_, _, hw⟩ := b.arrives.fileAt hseed
  exact fun hcuts => Tree.not_retraces_of_file hw trivial hcuts.2

/-- **A seed that is a file can be replaced** by the file that everything suits. -/
theorem Suits.exists_outcome_of_seed (h : b.Suits place seed file)
    (hdest : b.job.destination = .replaceSeed) (hdigest : b.order.digest = Digest.sha1Hex file)
    (htemp : b.fetched.temporary = none) (hseed : w.disk.FileAt task.seed place seed) :
    ∃ o w', runOn task.run w = (.ok o, w') ∧ b.Delivers o file w' := by
  have hcuts := not_cuts_of_fileAt (b := b) hseed
  obtain ⟨_, _, hw⟩ := hseed
  exact h.exists_outcome_replacing hdest hdigest htemp (Writer.canSupplant_of_walk hw trivial)
    fun _ => hcuts

/-- An output in the place of the seed, or in a place of its own, is apart from the temporary
file. -/
theorem isApart (hseed : w.disk.FileAt task.seed place seed)
    (hplace : task.CanPlace w b.fetched b.found) : b.IsApart := by
  intro temporary e htemp hw
  rcases hdest : b.job.destination with path | _
  · obtain ⟨hout, _⟩ := destinationOn_eq_file hdest
    rw [Job.path_of_file hdest, Job.follows_of_file hdest] at hw
    refine (hplace path hout).2 temporary htemp ?_
    rw [← b.idles.disk.placeOf?, Disk.placeOf?, hw]
  · rw [Job.path_of_replaceSeed hdest, Job.follows_of_replaceSeed hdest] at hw
    obtain ⟨mode, time, hfile⟩ := b.arrives.fileAt hseed
    rcases Tree.walk_follow hfile with hplain | ⟨link, target, hlink⟩
    · cases hplain.symm.trans hw
      exact b.arrives.ne_temporary hseed htemp rfl
    · -- a link is not the temporary file either
      obtain ⟨_, _, _, hcopy⟩ := b.temporary_file htemp
      cases hlink.symm.trans hw
      cases (Tree.get?_of_walk hlink trivial).symm.trans hcopy

/-- **The seed is replaced** if the path of the output leads to it, or if there is no such path. -/
theorem path_of_same (hseed : w.disk.FileAt task.seed place seed)
    (hplace : task.CanPlace w b.fetched b.found)
    (hsame : ∀ path, task.output = some path →
      w.disk.placeOf? path = w.disk.placeOf? task.seed) : b.job.path = task.seed := by
  rcases hdest : b.job.destination with path | _
  · obtain ⟨hout, hapart⟩ := destinationOn_eq_file hdest
    refine absurd ?_ (hapart place (b.arrives.fileAt hseed).placeOf?)
    exact (b.arrives.placeOf?_eq_iff hseed (hplace path hout).1).mpr
      ((hsame path hout).trans hseed.placeOf?)
  · exact Job.path_of_replaceSeed hdest

/-- **An output whose path leads elsewhere** goes to that path. -/
theorem path_of_ne {path : String} (hseed : w.disk.FileAt task.seed place seed)
    (hplace : task.CanPlace w b.fetched b.found) (hout : task.output = some path)
    (hne : w.disk.placeOf? path ≠ w.disk.placeOf? task.seed) : b.job.path = path := by
  refine Job.path_of_file ?_
  have hstart : b.start.disk.placeOf? task.seed ≠ b.start.disk.placeOf? path := by
    rw [hseed.placeOf?] at hne
    rw [(b.arrives.fileAt hseed).placeOf?]
    exact fun heq => hne ((b.arrives.placeOf?_eq_iff hseed (hplace path hout).1).mp heq.symm)
  change destinationOn b.start.disk task.seed task.output = _
  rw [hout]
  exact if_neg fun h => hstart h.2

end Briefing

/-- **A task restores the file** that its descriptor, its plan and the server agree on. -/
theorem restores (hobliging : w.disk.IsObliging) (hfinds : task.Finds w fetched found url file)
    (hplan : task.Plans fetched found plan) (hfits : plan.Fits seed file)
    (hsize : file.length ≤ fileLimit) (hseed : w.disk.FileAt task.seed place seed)
    (hseedSize : seed.length ≤ fileLimit) (hplace : task.CanPlace w fetched found)
    (hweb : Http.isWeb url = true) (hoffers : Http.Offers w.net.server url file)
    (hchunk : task.settings.reconstruction.downloadChunkSize.count.toNat < Origin.roomLimit) :
    ∃ o w', runOn task.run w = (.ok o, w') ∧ task.Restored w plan file o w'.disk := by
  obtain ⟨client, hnamed, hfetched⟩ := hfinds.finds
  obtain ⟨copy, content, d, rest, text, hfile, hread, hlength, hdigest, htext, hurl⟩ := hfinds.gives
  obtain ⟨order, log, horder, hlength', hdigest', hurl'⟩ :=
    Order.exists_ofDescriptor hlength hdigest htext hurl
  have harrives := (Fetched.ends_ofLocation client task.location w).of_ok hfetched
  obtain ⟨b, rfl, rfl, rfl, rfl⟩ := exists_briefing hnamed hfetched
    (hobliging.congr harrives.along.refuses) hfile hread horder fun read hreads => by
      rw [Plans, hreads] at hplan
      exact hplan
  have hcuts := Briefing.not_cuts_of_fileAt (b := b) hseed
  have hsuits : b.Suits place seed file :=
    ⟨hobliging, hfits, hsize, hlength', fun _ => hseed, hseedSize, hurl' ▸ hweb, hurl' ▸ hoffers,
      hchunk⟩
  have hcan : b.CanSucceed place seed file := by
    refine hsuits.canSucceed hdigest' ?_ ?_ fun _ => hcuts
    · intro path hdest
      obtain ⟨hout, _⟩ := destinationOn_eq_file hdest
      exact ⟨b.arrives.canCreate (hplace path hout).1,
        fun s => Briefing.isApartFrom_seed (b.arrives.fileAt hseed) path s hdest⟩
    · obtain ⟨_, _, hw⟩ := b.arrives.fileAt hseed
      exact fun _ => Writer.canSupplant_of_walk hw trivial
  obtain ⟨o, w', bytes, hrun, hd⟩ := b.exists_outcome hcan
  obtain rfl : bytes = file := (hd.exact place seed file hcan.run.fill).trans hsuits.patched_eq
  refine ⟨o, w', hrun, ?_, ?_, ?_, hd.reused, hd.downloaded, hd.requests⟩
  · exact hd.found (Briefing.isApart hseed hplace) fun hbreaks => hcuts hbreaks.2
  · exact fun hsame => hd.path.trans (Briefing.path_of_same hseed hplace hsame)
  · exact fun path hout hne => hd.path.trans (Briefing.path_of_ne hseed hplace hout hne)

end SyncTask

/-! ### A file of three bytes -/

namespace Digest

/-- The digest of the file. -/
def ofThreeBytes : String :=
  "5af13954a67eab2973b4ade01186602dd8739787"

theorem sha1Hex_threeBytes : sha1Hex [99, 100, 101] = ofThreeBytes := by
  decide +kernel

theorem isDigest_ofThreeBytes : Descriptor.isDigest ofThreeBytes = true :=
  Descriptor.isDigest_ofList (by decide)

/-- The seed has another digest. -/
theorem sha1Hex_seed_ne : sha1Hex [97, 98, 99] ≠ ofThreeBytes := by
  decide +kernel

end Digest

namespace Descriptor

/-- The text of a descriptor of three bytes with a digest. -/
def threeBytesText (digest : String) : List UInt8 :=
  Text.encode ("Length: 3\nSHA-1: " ++ digest ++ "\nURL: http://[::1]/cde\n\n")

/-- What it says. -/
def threeBytes (digest : String) : Descriptor where
  headers := [("Length", .integer 3), ("SHA-1", .text digest), ("URL", .text "http://[::1]/cde")]
  urls := ["http://[::1]/cde"]

variable {digest : String}

/-- A digest has nothing in it that ends a line. -/
theorem isPlain_of_isDigest {chars : List Char} (h : isDigest (String.ofList chars) = true) :
    isPlain ['S', 'H', 'A', '-', '1'] chars = true := by
  rw [isDigest, String.toList_ofList, Bool.and_eq_true, beq_iff_eq, List.all_eq_true] at h
  obtain ⟨hlength, hdigits⟩ := h
  have hno {c other : Char} (hc : c ∈ chars) (hother : Text.isHexDigit other = false) :
      c ≠ other := by
    rintro rfl
    cases (hdigits c hc).symm.trans hother
  have hne : chars ≠ [] := List.ne_nil_of_length_eq_add_one hlength
  have hvalue : chars.all (· != '\n') = true :=
    List.all_eq_true.mpr fun c hc => bne_iff_ne.mpr (hno hc rfl)
  have hlast : HeaderLine.isTrailing (chars.getLast hne) = false := by
    rw [← Bool.not_eq_true, HeaderLine.isTrailing_iff]
    exact not_or.mpr ⟨hno (List.getLast_mem hne) rfl,
      not_or.mpr ⟨hno (List.getLast_mem hne) rfl, hno (List.getLast_mem hne) rfl⟩⟩
  rw [isPlain, hvalue, List.getLast?_eq_some_getLast hne, Option.any_some, hlast]
  rfl

/-- **The text is read**, whatever the digest. -/
theorem read_threeBytesText (h : isDigest digest = true) :
    read (threeBytesText digest) = .ok (threeBytes digest, []) := by
  obtain ⟨chars, rfl⟩ : ∃ chars, digest = String.ofList chars :=
    ⟨digest.toList, String.ofList_toList.symm⟩
  change read (Text.encode (String.ofList _ ++ String.ofList chars ++ String.ofList _)) = _
  rw [← String.ofList_append, ← String.ofList_append]
  refine read_ofList [(_, _), (_, chars), (_, _)] (rfl : empty.insertAll [("Length", "3"),
    ("SHA-1", String.ofList chars), ("URL", "http://[::1]/cde")] = _) ?_ ?_ ?_
  · simp only [List.forall_mem_cons]
    exact ⟨by decide, isPlain_of_isDigest h, by decide, List.forall_mem_nil _⟩
  · exact (nofun : none ≠ some legacyVersion)
  · simp only [HeaderLine.separator, List.flatMap_cons, List.flatMap_nil, List.append_assoc,
      List.cons_append, List.nil_append]

theorem digest_threeBytes (h : isDigest digest = true) :
    (threeBytes digest).digest = .ok digest :=
  digest_of_text? rfl h

/-- Where it says that the file is. -/
def threeBytesUrl : Url :=
  ⟨"http", true, "", none, some (.ipv6 [0, 0, 0, 0, 0, 0, 0, 1]), none, "/cde", none, none⟩

/-- Where the descriptor is, is no URL. -/
theorem read_location : Url.read "/cde.zsync" = .error .relativeWithoutBase :=
  rfl

theorem absolute_location : Path.absolute (Location.toPath []) "/cde.zsync" = "/cde.zsync" :=
  rfl

theorem resolve_location :
    resolve (Url.ofFilePath "/cde.zsync").toText "http://[::1]/cde" = .ok threeBytesUrl :=
  rfl

end Descriptor

/-- A plan for the file with ranges that overlap. -/
def Plan.overlapping : Plan :=
  ⟨some 3, [⟨0, 2, 1⟩], [⟨1, 2⟩, ⟨0, 1⟩]⟩

theorem Plan.fits_overlapping : overlapping.Fits [97, 98, 99] [99, 100, 101] := by
  constructor
  case check => rfl
  case covers =>
    intro i hi
    rcases Nat.lt_or_ge i 1 with hfirst | hlast
    · exact Or.inl ⟨⟨0, 2, 1⟩, by decide, Nat.zero_le i, hfirst⟩
    · exact Or.inr ⟨⟨1, 2⟩, by decide, hlast, Nat.lt_succ_iff.mp hi⟩
  case source => decide
  case same => decide
  case reused | downloaded => decide

/-- A server with the file. It sends the last two bytes alone if it is asked for them, and all of
them otherwise. -/
def Http.Server.ofThreeBytes : Http.Server := fun _ request =>
  if request.range = some "bytes=1-2" then .answer 206 [] ⟨[[100], [101]], false⟩
  else .answer 200 [] ⟨[[99, 100, 101]], false⟩

theorem Http.offers_ofThreeBytes :
    Http.Offers .ofThreeBytes Descriptor.threeBytesUrl [99, 100, 101] := by
  intro served request r _ hrange hfirst hlast
  refine ⟨[], ?_⟩
  unfold Http.Server.ofThreeBytes
  rw [hrange]
  by_cases hr : rangeText r.first.toNat r.last.toNat = "bytes=1-2"
  · -- only one range inside of the file is asked for in these words
    have hall : ∀ first last : Fin 3,
        rangeText first last = "bytes=1-2" →
        (DownloadRange.slice ⟨UInt64.ofNat first, UInt64.ofNat last⟩ [99, 100, 101]).2 =
          [100, 101] := by decide +kernel
    have hslice := hall ⟨r.first.toNat, Nat.lt_of_le_of_lt hfirst hlast⟩ ⟨r.last.toNat, hlast⟩
    simp only [UInt64.ofNat_toNat] at hslice
    rw [if_pos (congrArg some hr)]
    exact ⟨_, Or.inl ⟨rfl, (hslice hr).symm⟩⟩
  · rw [if_neg fun heq => hr (Option.some.inj heq)]
    exact ⟨_, Or.inr ⟨rfl, rfl⟩⟩

namespace World

/-- A world with that server, with a seed, with a link to it and with a descriptor. Every program
prints the plan. -/
def withDescriptor (text : List UInt8) : World where
  disk := .ofTree [] ⟨[(["seed"], .file [97, 98, 99] defaultMode none), (["l"], .link "seed"),
    (["cde.zsync"], .file text defaultMode none)]⟩
  net := ⟨.ofThreeBytes, []⟩
  programs := ⟨fun _ _ => .ok ⟨.status 0, Text.encode Plan.overlapping.toJson, []⟩, []⟩
  progress := none
  log := []
  isVerbose := false

/-- The world with the descriptor of the file. -/
def withThreeBytes : World :=
  withDescriptor (Descriptor.threeBytesText Digest.ofThreeBytes)

variable (text : List UInt8)

theorem isObliging_withDescriptor : (withDescriptor text).disk.IsObliging :=
  isObliging_ofTree _ _

theorem fileAt_descriptor :
    (withDescriptor text).disk.FileAt "/cde.zsync" ["cde.zsync"] text :=
  fileAt_of_name (by decide) (by decide) (by decide) rfl

/-- The seed is found under its name, and that is no link. -/
theorem walk_seed (follow : Bool) :
    (withDescriptor text).disk.tree.walk [] follow "/seed" =
      .ok (.taken ["seed"] (.file [97, 98, 99] defaultMode none)) :=
  Tree.walk_of_name (by decide) (by decide) (by decide) rfl

theorem fileAt_seed : (withDescriptor text).disk.FileAt "/seed" ["seed"] [97, 98, 99] :=
  ⟨defaultMode, none, walk_seed text true⟩

end World

namespace SyncTask

/-- The task that makes a file of them. -/
def forThreeBytes (seed : String) (output : Option String) : SyncTask where
  location := "/cde.zsync"
  seed
  output
  settings := .default
  planner := .fixed .overlapping

theorem finds_threeBytes (seed : String) (output : Option String) :
    (forThreeBytes seed output).Finds .withThreeBytes
      ⟨"/cde.zsync", .ofFilePath "/cde.zsync", none⟩ .withThreeBytes Descriptor.threeBytesUrl
      [99, 100, 101] := by
  have hfile := World.fileAt_descriptor (Descriptor.threeBytesText Digest.ofThreeBytes)
  have habsolute : Path.absolute World.withThreeBytes.disk.cwd.toPath "/cde.zsync" =
      "/cde.zsync" := Descriptor.absolute_location
  constructor
  · refine ⟨⟨productName⟩, Http.Client.named_productName, ?_⟩
    have hlocal : runOn (Fetched.ofLocation ⟨productName⟩ "/cde.zsync") .withThreeBytes = _ :=
      runOn_ofLocation Descriptor.read_location (by decide) (habsolute.symm ▸ hfile)
    rwa [habsolute] at hlocal
  · refine ⟨_, _, _, _, "http://[::1]/cde", hfile,
      Descriptor.read_threeBytesText Digest.isDigest_ofThreeBytes, rfl, ?_, rfl,
      Descriptor.resolve_location⟩
    rw [Digest.sha1Hex_threeBytes]
    exact Descriptor.digest_threeBytes Digest.isDigest_ofThreeBytes

/-- **A task with a descriptor of the file** knows what suits it as soon as it has the plan. -/
theorem exists_briefing_of_threeBytes {task : SyncTask} {w : World} {text : List UInt8}
    {d : Descriptor} {digest : String} (hdisk : w.disk = (World.withDescriptor text).disk)
    (hserver : w.net.server = .ofThreeBytes) (hlocation : task.location = "/cde.zsync")
    (hagent : task.settings.client.userAgent = productName)
    (hroom : task.settings.reconstruction.downloadChunkSize.count.toNat < Origin.roomLimit)
    (hseed : (World.withDescriptor text).disk.FileAt task.seed ["seed"] [97, 98, 99])
    (hread : Descriptor.read text = .ok (d, [])) (hlength : d.length = .ok 3)
    (hdigest : d.digest = .ok digest) (htext : d.url = .ok "http://[::1]/cde")
    (hplan : ∀ read, read.programs = w.programs → read.isVerbose = w.isVerbose →
      (runOn (task.planner.plan "/cde.zsync" task.seed) read).1 = .ok .overlapping) :
    ∃ b : Briefing task w, b.fetched.temporary = none ∧ b.order.digest = digest ∧
      b.Suits ["seed"] [97, 98, 99] [99, 100, 101] := by
  have hnamed : Http.Client.named task.settings.client.userAgent = .ok ⟨productName⟩ := by
    rw [hagent]
    exact Http.Client.named_productName
  have hobliging : w.disk.IsObliging := hdisk ▸ World.isObliging_withDescriptor text
  obtain ⟨b, htemp, hp, hl, hd, hurl⟩ := exists_briefing_at hlocation hnamed
    Descriptor.read_location (by decide) (by rw [hdisk]; exact Descriptor.absolute_location)
    hobliging (hdisk ▸ World.fileAt_descriptor text) hread hlength hdigest htext
    Descriptor.resolve_location hplan
  refine ⟨b, htemp, hd, hobliging, hp ▸ Plan.fits_overlapping, by decide, hl, fun _ => ?_,
    by decide, ?_, ?_, hroom⟩
  · rw [hdisk]
    exact hseed
  · rw [hurl]
    decide
  · rw [hserver, hurl]
    exact Http.offers_ofThreeBytes

/-- A file is restored from two answers of a server, one with a part of it and one with all of it,
and from a byte of the seed. -/
theorem restores_overlapping :
    (forThreeBytes "/seed" (some "/cde")).Plans ⟨"/cde.zsync", .ofFilePath "/cde.zsync", none⟩
        .withThreeBytes .overlapping ∧
      Plan.overlapping.Fits [97, 98, 99] [99, 100, 101] ∧
      ∃ o w', runOn (forThreeBytes "/seed" (some "/cde")).run .withThreeBytes = (.ok o, w') ∧
        (forThreeBytes "/seed" (some "/cde")).Restored .withThreeBytes .overlapping
          [99, 100, 101] o w'.disk := by
  have hout : World.withThreeBytes.disk.tree.walk [] true "/cde" = .ok (.vacant [] "cde") :=
    Tree.walk_of_leads (by decide) (by decide : Walk.steps "/cde" = ["cde"])
      (.vacant (by decide) rfl)
  refine ⟨rfl, Plan.fits_overlapping, ?_⟩
  refine restores (World.isObliging_withDescriptor _) (finds_threeBytes _ _) rfl
    Plan.fits_overlapping (by decide) (World.fileAt_seed _) (by decide) ?_ (by decide)
    Http.offers_ofThreeBytes (by decide)
  intro path hpath
  cases hpath
  exact ⟨⟨by decide, _, hout, trivial⟩, nofun⟩

end SyncTask

end RangeSync
