import RangeSync.Descriptor.Location
import RangeSync.Proofs.Authority

/-!
# A relative URL stays on the server

The URL of a descriptor is cut at its last slash, the path of the header is put behind it, and what
comes of it is read once more. It is text that is glued, so the question is what of the header could
be read as something else than a path. The answer is: nothing. The text in front holds all the marks
that the reader looks for, and reading it gives the same authority whatever follows
(`RangeSync.Url.readAuthority_text`); the slash between the two ends the authority; and neither of
the two has a question mark or a number sign that would end the path.

So **the file lies behind the folder of the descriptor, on its server** (`RangeSync.Url.behind`),
and a header is refused only for being a URL that cannot be read.
-/

namespace RangeSync

open Text

/-! ### The place behind a folder -/

namespace Url

variable {c : Char} {s t front : List Char} {u : Url} {text scheme : String} {usual : Nat}

/-- The text without controls and spaces at its end, and without tabs and line ends. -/
def tidied (s : List Char) : List Char :=
  (dropEndWhile (fun c : Char => c.toNat ≤ 0x20) s).filter fun c =>
    c != '\t' && c != '\n' && c != '\r'

/-- The usual form of the path of a well-known scheme: characters are encoded, backslashes are
slashes, and segments of one or two dots are carried out. -/
def normalPath (path : String) : String :=
  String.ofList (readPath true false (afterSlash true (tidied path.toList))).1

/-- The path of a URL up to its last slash. -/
def pathAbove (u : Url) : String :=
  match cutAtLast? (· == '/') u.path.toList with
  | some (above, _, _) => String.ofList above
  | none => ""

/-- The URL of a path behind the folder that the path of a URL lies in. -/
def behind (u : Url) (path : String) : Url :=
  { u with path := normalPath (u.pathAbove ++ "/" ++ path), query := none, fragment := none }

/-- The header up to its query or fragment. -/
def beforeQuery (header : String) : String :=
  String.ofList (header.toList.takeWhile fun c => c != '?' && c != '#')

/-! ### Text without blanks in front -/

/-- A text without blanks keeps what is behind it from being tidied together with it. -/
theorem tidied_append (h : ∀ c ∈ front, 0x20 < c.toNat) :
    tidied (front ++ '/' :: s) = front ++ '/' :: tidied s := by
  have hdrop : dropEndWhile (fun c : Char => c.toNat ≤ 0x20) (front ++ '/' :: s) =
      front ++ '/' :: dropEndWhile (fun c : Char => c.toNat ≤ 0x20) s := by
    obtain ⟨dropped, hs, hall⟩ := eq_dropEndWhile_append (fun c : Char => c.toNat ≤ 0x20) s
    refine dropEndWhile_eq_iff.mpr ⟨dropped, ?_, hall, fun c hc => ?_⟩
    · rw [List.append_assoc, List.cons_append, ← hs]
    · rw [List.getLast?_append, List.getLast?_cons] at hc
      cases hlast : (dropEndWhile (fun c : Char => c.toNat ≤ 0x20) s).getLast? with
      | none =>
        rw [hlast] at hc
        cases hc
        rfl
      | some d =>
        rw [hlast] at hc
        cases hc
        exact getLast?_dropEndWhile _ s _ hlast
  have hkeeps : front.filter (fun c => c != '\t' && c != '\n' && c != '\r') = front := by
    refine List.filter_eq_self.mpr fun c hc => ?_
    have hlow := h c hc
    simp only [Bool.and_eq_true, bne_iff_ne]
    refine ⟨⟨?_, ?_⟩, ?_⟩ <;> rintro rfl <;> exact absurd hlow (by decide)
  rw [tidied, hdrop, List.filter_append, hkeeps, List.filter_cons_of_pos rfl, tidied]

/-- Nothing in front of such a text is cleaned away either. -/
theorem cleaned_append (h : ∀ c ∈ front, 0x20 < c.toNat) :
    cleaned (front ++ '/' :: s) = front ++ '/' :: tidied s := by
  have hstart : (front ++ '/' :: s).dropWhile (fun c : Char => c.toNat ≤ 0x20) =
      front ++ '/' :: s := by
    cases front with
    | nil => exact List.dropWhile_cons_of_neg (by decide)
    | cons c front =>
      have hlow := h c List.mem_cons_self
      exact List.dropWhile_cons_of_neg (by simpa using hlow)
  exact (congrArg tidied hstart).trans (tidied_append h)

theorem mem_of_mem_tidied (h : c ∈ tidied s) : c ∈ s := by
  obtain ⟨dropped, hs, -⟩ := eq_dropEndWhile_append (fun c : Char => c.toNat ≤ 0x20) s
  rw [hs]
  exact List.mem_append_left _ ((List.mem_filter.mp h).1)

/-! ### Schemes -/

/-- The well-known schemes with their usual ports. -/
theorem mem_of_kindOf (h : kindOf scheme = .special usual) :
    scheme ∈ ["http", "ws", "https", "wss", "ftp"] := by
  unfold kindOf at h
  split at h <;> first | (cases h; done) | decide

/-- A well-known scheme is read from in front of its colon. -/
theorem readScheme?_append (h : kindOf scheme = .special usual) :
    readScheme? (scheme.toList ++ ':' :: s) = some (scheme, s) := by
  have hscheme := mem_of_kindOf h
  simp only [List.mem_cons, List.not_mem_nil, or_false] at hscheme
  rcases hscheme with rfl | rfl | rfl | rfl | rfl <;> rfl

theorem readOther_scheme (h : readOther scheme s = .ok u) : u.scheme = scheme := by
  unfold readOther at h
  split at h
  · obtain ⟨v, rest, rfl, hscheme⟩ := readAuthority_path h
    exact hscheme
  · cases h
    rfl
  · cases h
    rfl

/-- **A URL of a well-known scheme is the URL of a server.** -/
theorem isServed_of_read (h : read text = .ok u) (hkind : kindOf u.scheme = .special usual) :
    IsServed usual u := by
  unfold read at h
  split at h
  · cases h
  · split at h
    · rename_i port hport
      obtain ⟨hscheme, hserved⟩ := isServed_of_readAuthority h
      rw [hscheme, hport] at hkind
      cases hkind
      exact hserved
    · obtain ⟨host, rest, rfl⟩ := readFile_path h
      have hfile : kindOf (fileUrl host rest).scheme = .file := rfl
      rw [hfile] at hkind
      cases hkind
    · rename_i hother
      rw [readOther_scheme h, hother] at hkind
      cases hkind

/-! ### The text of a URL -/

/-- What stands in front of the path of a URL with an authority. -/
def frontText (u : Url) : List Char :=
  u.scheme.toList ++ ':' :: '/' :: '/' :: (u.userInfoText.toList ++ u.hostText.toList)

theorem toList_page (h : u.hasAuthority = true) :
    u.page.toText.toList = u.frontText ++ u.path.toList := by
  have hpage : u.page = { u with query := none, fragment := none } := by
    simp [page, hasOpaquePath, h]
  rw [hpage]
  simp [toText, authorityText, h, partText, frontText, userInfoText, hostText]

/-- The path of a server begins with a slash, so it has a last one. -/
theorem IsServed.path_eq (h : IsServed usual u) :
    ∃ last, u.path.toList = u.pathAbove.toList ++ '/' :: last ∧ ∀ c ∈ last, (c == '/') = false := by
  unfold pathAbove
  cases hcut : cutAtLast? (· == '/') u.path.toList with
  | none =>
    obtain ⟨rest, hpath⟩ := h.path
    have hslash := cutAtLast?_eq_none hcut '/' (hpath ▸ List.mem_cons_self)
    cases hslash
  | some cut =>
    obtain ⟨above, c, last⟩ := cut
    obtain ⟨hpath, hc, hlast⟩ := cutAtLast?_eq_some hcut
    obtain rfl := eq_of_beq hc
    exact ⟨last, by rw [hpath, String.toList_ofList], hlast⟩

/-- **The folder of a URL** is its text up to the last slash of its path. -/
theorem toList_folderText (h : IsServed usual u) :
    (Descriptor.folderText u.page).toList = u.frontText ++ u.pathAbove.toList := by
  obtain ⟨last, hpath, hlast⟩ := h.path_eq
  unfold Descriptor.folderText
  rw [toList_page h.hasAuthority, hpath, ← List.append_assoc,
    cutAtLast?_append (p := (· == '/')) (a := '/') (beq_self_eq_true _) hlast]
  exact String.toList_ofList

/-- Neither blanks nor slashes stand in an authority. -/
theorem IsServed.of_mem_authority (h : IsServed usual u)
    (hc : c ∈ u.userInfoText.toList ++ u.hostText.toList) :
    0x20 < c.toNat ∧ endsAuthority true c = false := by
  rcases List.mem_append.mp hc with hc | hc
  · rw [toList_userInfoText] at hc
    split at hc
    · exact absurd hc List.not_mem_nil
    · rcases List.mem_append.mp hc with hc | hc
      · exact h.of_mem_userText hc
      · rw [List.mem_singleton.mp hc]
        decide
  · obtain ⟨hlow, hends, -⟩ := h.of_mem_hostText hc
    exact ⟨hlow, hends⟩

/-- What stands in front of the path has no blanks. -/
theorem IsServed.lt_of_mem_frontText (h : IsServed usual u)
    (hkind : kindOf u.scheme = .special usual) (hc : c ∈ u.frontText) : 0x20 < c.toNat := by
  rcases List.mem_append.mp hc with hc | hc
  · have hall : ∀ scheme ∈ ["http", "ws", "https", "wss", "ftp"],
        scheme.toList.all (fun c => 0x20 < c.toNat) = true := by decide
    exact of_decide_eq_true (List.all_eq_true.mp (hall _ (mem_of_kindOf hkind)) c hc)
  · simp only [List.mem_cons] at hc
    rcases hc with rfl | rfl | rfl | hc
    · decide
    · decide
    · decide
    · exact (h.of_mem_authority hc).1

/-- The slashes behind a scheme are all in front of the authority. -/
theorem IsServed.dropWhile_isSlash (h : IsServed usual u) :
    ('/' :: '/' :: (u.userInfoText.toList ++ u.hostText.toList ++ s)).dropWhile isSlash =
      u.userInfoText.toList ++ u.hostText.toList ++ s := by
  obtain ⟨host, hhost, -, hne, -⟩ := h.host
  have hauthority : u.userInfoText.toList ++ u.hostText.toList ≠ [] := by
    rw [toList_hostText hhost]
    simp [hne]
  rw [List.dropWhile_cons_of_pos rfl, List.dropWhile_cons_of_pos rfl]
  cases htext : u.userInfoText.toList ++ u.hostText.toList with
  | nil => exact absurd htext hauthority
  | cons c rest =>
    have hends := (h.of_mem_authority (htext ▸ List.mem_cons_self)).2
    refine List.dropWhile_cons_of_neg ?_
    simp only [endsAuthority, Bool.true_and, Bool.or_eq_false_iff] at hends
    rw [isSlash, hends.1.1.1, hends.2]
    decide

/-- Text that nothing ends is all path. -/
theorem withPath_of_forall (h : ∀ c ∈ s, endsPath c = false) :
    withPath u true s = { u with
      path := String.ofList (readPath true false (afterSlash true s)).1
      query := none
      fragment := none } := by
  have hnot : ∀ c ∈ s, (!endsPath c) = true := fun c hc => by rw [h c hc]; rfl
  have htake : s.takeWhile (!endsPath ·) = s := by
    rw [← List.append_nil s, List.takeWhile_append_of_pos hnot, List.takeWhile_nil]
  have hdrop : s.dropWhile (!endsPath ·) = [] := by
    rw [← List.append_nil s, List.dropWhile_append_of_pos hnot, List.dropWhile_nil]
  rw [withPath, htake, hdrop]
  simp [readEnd]

/-- **A path behind the folder of a URL is read as its path**, and everything in front of it as it
was. -/
theorem IsServed.read_folderText_append (h : IsServed usual u)
    (hkind : kindOf u.scheme = .special usual) {path : String}
    (hends : ∀ c ∈ path.toList, endsPath c = false) :
    read (Descriptor.folderText u.page ++ "/" ++ path) = .ok (u.behind path) := by
  obtain ⟨last, hpath, -⟩ := h.path_eq
  have habove : ∀ c ∈ u.pathAbove.toList, IsInPath c :=
    fun c hc => h.pathChars c (hpath ▸ List.mem_append_left _ hc)
  have hblank : ∀ c ∈ u.frontText ++ u.pathAbove.toList, 0x20 < c.toNat := by
    intro c hc
    rcases List.mem_append.mp hc with hc | hc
    · exact h.lt_of_mem_frontText hkind hc
    · exact (habove c hc).1
  have htidied : tidied (u.pathAbove ++ "/" ++ path).toList =
      u.pathAbove.toList ++ '/' :: tidied path.toList := by
    rw [String.toList_append, String.toList_append, List.append_assoc]
    exact tidied_append fun c hc => (habove c hc).1
  have hclean : cleaned (Descriptor.folderText u.page ++ "/" ++ path).toList =
      u.scheme.toList ++ ':' :: '/' :: '/' :: (u.userInfoText.toList ++ u.hostText.toList ++
        tidied (u.pathAbove ++ "/" ++ path).toList) := by
    rw [htidied, String.toList_append, String.toList_append, toList_folderText h, List.append_assoc]
    refine (cleaned_append hblank).trans ?_
    simp [frontText]
  have hall : ∀ c ∈ tidied (u.pathAbove ++ "/" ++ path).toList, endsPath c = false := by
    rw [htidied]
    intro c hc
    rcases List.mem_append.mp hc with hc | hc
    · exact (habove c hc).2
    · rcases List.mem_cons.mp hc with rfl | hc
      · decide
      · exact hends c (mem_of_mem_tidied hc)
  -- The folder is empty or begins with a slash, so a slash comes behind the authority.
  obtain ⟨rest, hrest⟩ : ∃ rest, tidied (u.pathAbove ++ "/" ++ path).toList = '/' :: rest := by
    obtain ⟨first, hfirst⟩ := h.path
    rw [htidied]
    cases hcase : u.pathAbove.toList with
    | nil => exact ⟨_, rfl⟩
    | cons c above =>
      rw [hcase, hfirst] at hpath
      rw [← (List.cons.inj hpath).1]
      exact ⟨_, rfl⟩
  rw [read, hclean, readScheme?_append hkind]
  simp only [hkind, h.dropWhile_isSlash]
  rw [hrest, readAuthority_text h, withPath_of_forall (hrest ▸ hall), ← hrest]
  rfl

end Url

/-! ### The place of a file -/

namespace Descriptor

variable {metadata header path : String} {base : Url} {usual : Nat}

theorem resolve_of_relative (htarget : targetOf header = .ok (.relative path))
    (hbase : Url.read metadata = .ok base) (hkind : Url.kindOf base.scheme = .special usual)
    (hends : ∀ c ∈ path.toList, Url.endsPath c = false) :
    resolve metadata header = .ok (base.behind path) := by
  have hread := (Url.isServed_of_read hbase hkind).read_folderText_append hkind hends
  simp only [resolve, htarget, hbase, hread, bind, Except.bind]

/-- A header that is refused for what it is itself. -/
theorem resolve_of_refused {fault : Url.Fault} (hurl : Url.read header = .error fault)
    (hfault : fault ≠ .relativeWithoutBase) :
    resolve metadata header = .error (.invalidUrl header fault) := by
  have htarget : targetOf header = .error (.invalidUrl header fault) := by
    rw [targetOf, hurl]
    cases fault <;> first | exact absurd rfl hfault | rfl
  simp only [resolve, htarget, bind, Except.bind]

theorem endsPath_of_mem_beforeQuery {c : Char} (h : c ∈ (Url.beforeQuery header).toList) :
    Url.endsPath c = false := by
  rw [Url.beforeQuery, String.toList_ofList] at h
  have hkept := List.all_eq_true.mp List.all_takeWhile c h
  simpa [Url.endsPath] using hkept

/-- **A relative URL stays on the server of the descriptor.** The URL of the header has no host, or
it is no URL by itself: then the file lies behind the folder of the descriptor, whatever the header
holds. Only a header that begins with a scheme and cannot be read is refused. -/
theorem stays_on_its_server (metadata header : String) (base : Url)
    (hbase : Url.read metadata = .ok base)
    (hscheme : base.scheme = "http" ∨ base.scheme = "https") :
    (∀ url, Url.read header = .ok url → url.host = none →
      resolve metadata header = .ok (base.behind url.path)) ∧
    (Url.read header = .error .relativeWithoutBase →
      resolve metadata header = .ok (base.behind (Url.beforeQuery header))) ∧
    ∀ error, resolve metadata header = .error error ↔
      ∃ fault, fault ≠ .relativeWithoutBase ∧ Url.read header = .error fault ∧
        error = .invalidUrl header fault := by
  obtain ⟨usual, hkind⟩ : ∃ usual, Url.kindOf base.scheme = .special usual := by
    rcases hscheme with h | h <;> rw [h] <;> exact ⟨_, rfl⟩
  have hhostless : ∀ url, Url.read header = .ok url → url.host = none →
      resolve metadata header = .ok (base.behind url.path) := by
    intro url hurl hhost
    have htarget : targetOf header = .ok (.relative url.path) := by
      simp [targetOf, hurl, hhost]
    exact resolve_of_relative htarget hbase hkind fun c hc => Url.endsPath_of_mem_path hurl hc
  have hrelative : Url.read header = .error .relativeWithoutBase →
      resolve metadata header = .ok (base.behind (Url.beforeQuery header)) := by
    intro hurl
    have htarget : targetOf header = .ok (.relative (Url.beforeQuery header)) := by
      simp only [targetOf, hurl, Url.beforeQuery]
    exact resolve_of_relative htarget hbase hkind fun c hc => endsPath_of_mem_beforeQuery hc
  refine ⟨hhostless, hrelative, fun error => ⟨fun herror => ?_, ?_⟩⟩
  · cases hurl : Url.read header with
    | ok url =>
      cases hhost : url.host with
      | none =>
        rw [hhostless url hurl hhost] at herror
        cases herror
      | some host =>
        have htarget : targetOf header = .ok (.absolute url) := by
          simp [targetOf, hurl, hhost]
        simp only [resolve, htarget, bind, Except.bind] at herror
        cases herror
    | error fault =>
      by_cases hfault : fault = .relativeWithoutBase
      · subst hfault
        rw [hrelative hurl] at herror
        cases herror
      · rw [resolve_of_refused hurl hfault] at herror
        exact ⟨fault, hfault, rfl, (Except.error.inj herror).symm⟩
  · rintro ⟨fault, hfault, hurl, rfl⟩
    exact resolve_of_refused hurl hfault

/-- The URL of a descriptor with all that the URL of a server can have. -/
def usedUrl : Url :=
  { scheme := "https", hasAuthority := true, username := "me", password := some "pw"
    host := some (.ipv6 [0, 0, 0, 0, 0, 0, 0, 1]), port := some 8080, path := "/a/b.zsync"
    query := some "v=/2", fragment := some "top" }

/-- A header that looks like another host, with a tab inside of an encoded character. -/
def strayHeader : String :=
  "\\\\other@host:1\\./x y%2\tF?z"

theorem stays_on_its_server_stray :
    Url.read "https://me:pw@[::1]:8080/a/b.zsync?v=/2#top" = .ok usedUrl ∧
    (usedUrl.scheme = "http" ∨ usedUrl.scheme = "https") ∧
    Url.read strayHeader = .error .relativeWithoutBase ∧
    resolve "https://me:pw@[::1]:8080/a/b.zsync?v=/2#top" strayHeader =
      .ok { usedUrl with
        path := "/a///other@host:1/x%20y%2F", query := none, fragment := none } := by
  have hbase : Url.read "https://me:pw@[::1]:8080/a/b.zsync?v=/2#top" = .ok usedUrl := by rfl
  have hscheme : usedUrl.scheme = "http" ∨ usedUrl.scheme = "https" := .inr rfl
  have hheader : Url.read strayHeader = .error .relativeWithoutBase := by rfl
  have hbehind : usedUrl.behind (Url.beforeQuery strayHeader) =
      { usedUrl with
        path := "/a///other@host:1/x%20y%2F", query := none, fragment := none } := by rfl
  have hplace := (stays_on_its_server _ strayHeader usedUrl hbase hscheme).2.1 hheader
  rw [hbehind] at hplace
  exact ⟨hbase, hscheme, hheader, hplace⟩

end Descriptor

end RangeSync
