import RangeSync.Proofs.Absolute
import RangeSync.Proofs.Location
import RangeSync.Proofs.Sync

/-!
# Descriptors in local files

The location of a descriptor is a URL or a path, and nothing but the text says which. So a file name
with a colon in it may be taken for a URL. This file says how far names are safe.

A text is read as a URL only if it begins with a scheme: a letter, and up to the first colon nothing
but letters, digits and three marks (`RangeSync.Url.BeginsWith`). A scheme that is none of the web
or of files is refused, whether or not there is a file of that name – except that a single letter is
taken for a disk drive, so that a path follows. Everything else is a path, and then
`RangeSync.Fetched.finds_local_file` says what is found at it: the file at the absolute form of the
path, if there is one. No request is made, and nothing in the world is changed.

By `RangeSync.Tree.walk_absolute` that is the file that the path itself leads to. What makes the
difference is a dot at the end: the absolute form leaves it out, and a file is found where the path
asks for a folder. `RangeSync.Fetched.name_of_file_misleads` shows both exceptions.
-/

namespace RangeSync

open Act Text

/-! ### Schemes -/

namespace Url

variable {text scheme : String} {s rest : List Char} {u : Url}

/-- **The text begins with a scheme**: these characters stand before the first colon, once blanks
around the text and line ends in it are left out. -/
structure BeginsWith (text : String) (front : List Char) : Prop where
  cut : ∃ rest, cleaned text.toList = front ++ ':' :: rest
  letter : ∃ c more, front = c :: more ∧ c.isAlpha = true
  inside : ∀ c ∈ front, inScheme c = true

/-- What a scheme is read from. -/
theorem of_readScheme?_eq_some (h : readScheme? s = some (scheme, rest)) :
    ∃ front, s = front ++ ':' :: rest ∧ scheme = String.ofList (lowered front) ∧
      (∃ c more, front = c :: more ∧ c.isAlpha = true) ∧ ∀ c ∈ front, inScheme c = true := by
  unfold readScheme? at h
  split at h
  · cases h
  rename_i c more
  split at h
  · cases h
  rename_i halpha
  have hletter : c.isAlpha = true := by simpa using halpha
  split at h
  · rename_i after hafter
    cases h
    -- the scheme is everything up to the colon, and the letter at its beginning belongs to it
    have hfirst : inScheme c = true := by
      simp only [inScheme, Char.isAlphanum, hletter, Bool.true_or]
    refine ⟨(c :: more).takeWhile inScheme, ?_, rfl, ?_, fun b hb => ?_⟩
    · rw [← hafter, List.takeWhile_append_dropWhile]
    · exact ⟨c, more.takeWhile inScheme, List.takeWhile_cons_of_pos hfirst, hletter⟩
    · exact List.all_eq_true.mp List.all_takeWhile b hb
  · cases h

theorem kindOf_eq_file (h : kindOf scheme = .file) : scheme = "file" := by
  unfold kindOf at h
  split at h <;> first | (cases h; done) | rfl

/-- **The scheme of a URL** is the one that was read in front of its colon. -/
theorem readScheme?_of_read (h : read text = .ok u) :
    ∃ rest, readScheme? (cleaned text.toList) = some (u.scheme, rest) := by
  unfold read at h
  split at h
  · cases h
  rename_i scheme rest hread
  rw [hread]
  split at h
  · obtain ⟨v, s, rfl, rfl⟩ := readAuthority_path h
    exact ⟨rest, rfl⟩
  · rename_i hfile
    obtain ⟨host, s, rfl⟩ := readFile_path h
    exact ⟨rest, by rw [kindOf_eq_file hfile]; rfl⟩
  · exact ⟨rest, by rw [readOther_scheme h]⟩

/-- **What a URL begins with.** -/
theorem beginsWith_of_read (h : read text = .ok u) :
    ∃ front, BeginsWith text front ∧ u.scheme = String.ofList (lowered front) := by
  obtain ⟨rest, hread⟩ := readScheme?_of_read h
  obtain ⟨front, hcut, hscheme, hletter, hinside⟩ := of_readScheme?_eq_some hread
  exact ⟨front, ⟨⟨rest, hcut⟩, hletter, hinside⟩, hscheme⟩

/-- **The text is a URL with a scheme of two letters or more**, which is no disk drive. -/
def IsForeign (text : String) : Prop :=
  ∃ u, read text = .ok u ∧ 1 < u.scheme.length

/-- A text that is taken for a URL begins with a scheme of two letters or more. -/
theorem IsForeign.beginsWith (h : IsForeign text) :
    ∃ front, BeginsWith text front ∧ 1 < front.length := by
  obtain ⟨u, hread, hlong⟩ := h
  obtain ⟨front, hbegins, hscheme⟩ := beginsWith_of_read hread
  rw [hscheme, String.length_ofList, lowered, List.length_map] at hlong
  exact ⟨front, hbegins, hlong⟩

end Url

/-! ### Files at paths -/

/-- A file is at the path. -/
def Disk.HasFile (d : Disk) (path : String) : Prop :=
  ∃ place content, d.FileAt path place content

namespace Disk

variable {d : Disk} {path : String}

/-- **The absolute form of a path has a file exactly if the path has one.** -/
theorem hasFile_absolute_iff (hcwd : d.tree.IsWorkplace d.cwd) (hpath : Walk.IsPath path)
    (hidle : ¬ Path.EndsIdle path) (habsolute : Walk.IsPath (Path.absolute d.cwd.toPath path)) :
    d.HasFile (Path.absolute d.cwd.toPath path) ↔ d.HasFile path := by
  unfold HasFile FileAt
  rw [Tree.walk_absolute true hcwd hpath hidle habsolute]

end Disk

/-! ### Getting a descriptor -/

namespace Fetched

variable {client : Http.Client} {location : String} {w : World}

/-- The file that a location names as a path. -/
def atPath (d : Disk) (location : String) : Fetched :=
  ⟨Path.absolute d.cwd.toPath location, .ofFilePath (Path.absolute d.cwd.toPath location), none⟩

/-- A descriptor in a file that is missing. -/
theorem runOn_ofPath_of_missing (hname : location.isEmpty = false)
    (hmissing : ¬ w.disk.HasFile (atPath w.disk location).path) :
    runOn (ofPath location location) w = (.error (.failed (.metadata location .noFile)), w) := by
  have hends : (ofPath location location).Ends w (fun _ _ => False)
      fun cause w' => cause = .failed (.metadata location .noFile) ∧ w' = w := by
    unfold ofPath Disk.isFile
    rw [hname, ends_when, if_neg Bool.false_ne_true, ends_pure, ends_bind, ends_get, ends_bind,
      ends_onDisk, ends_bind, ends_get]
    split
    · rename_i place content mode time hw
      exact absurd ⟨place, content, mode, time, hw⟩ hmissing
    · exact ⟨rfl, rfl⟩
  obtain ⟨cause, w', hrun, rfl, rfl⟩ := hends.exists_error
  exact hrun

/-- A URL with another scheme of two letters or more is refused. -/
theorem ofLocation_of_long {url : Url} (client : Http.Client)
    (hread : Url.read location = .ok url) (hscheme : url.scheme ∉ ["http", "https", "file"])
    (hlong : 1 < url.scheme.length) :
    ofLocation client location = fail (.metadata location (.otherScheme url.scheme)) := by
  obtain ⟨hweb, hfile⟩ : Http.isWeb url = false ∧ url.scheme ≠ "file" := by
    simpa [Http.isWeb, not_or, and_assoc] using hscheme
  unfold ofLocation
  rw [hread]
  simp only [hweb, hfile, hlong, Bool.false_eq_true, if_false, if_true]

/-- Every other text is a path, whether it is a URL or not. -/
theorem ofLocation_of_not_foreign (client : Http.Client)
    (hscheme : ∀ url, Url.read location = .ok url → url.scheme ∉ ["http", "https", "file"])
    (hforeign : ¬ Url.IsForeign location) :
    ofLocation client location = ofPath location location := by
  unfold ofLocation
  split
  · rfl
  · rename_i url hread
    obtain ⟨hweb, hfile⟩ : Http.isWeb url = false ∧ url.scheme ≠ "file" := by
      simpa [Http.isWeb, not_or, and_assoc] using hscheme url hread
    have hshort : ¬ 1 < url.scheme.length := fun hlong => hforeign ⟨url, hread, hlong⟩
    simp only [hweb, hfile, hshort, Bool.false_eq_true, if_false]

/-- **A descriptor in a local file.** The location is not empty, and if it is a URL, its scheme is
none of the web or of files. Then nothing in the world is changed, and no request is made.

The answer is the file at the absolute form of the location, exactly if there is one and the
location is no URL with a scheme of two letters or more; the causes of a failure are these two. Such
a URL begins with a scheme of two letters or more, so every other text is a path, with colons or
without. The absolute form is an absolute path. There is a file at it exactly if there is one at the
path itself, seen from the working directory, unless the path ends idly or one of the two is too
long for a path. -/
theorem finds_local_file (client : Http.Client) (location : String) (w : World)
    (hname : location ≠ "")
    (hscheme : ∀ url, Url.read location = .ok url → url.scheme ∉ ["http", "https", "file"]) :
    (∃ result, runOn (ofLocation client location) w = (result, w) ∧
      (result = .ok (atPath w.disk location) ↔
        ¬ Url.IsForeign location ∧ w.disk.HasFile (atPath w.disk location).path) ∧
      (¬ Url.IsForeign location → ¬ w.disk.HasFile (atPath w.disk location).path →
        result = .error (.failed (.metadata location .noFile))) ∧
      ∀ url, Url.read location = .ok url → 1 < url.scheme.length →
        result = .error (.failed (.metadata location (.otherScheme url.scheme)))) ∧
    Path.isAbsolute (atPath w.disk location).path = true ∧
    (Url.IsForeign location → ∃ front, Url.BeginsWith location front ∧ 1 < front.length) ∧
    (w.disk.tree.IsWorkplace w.disk.cwd → ¬ Path.EndsIdle location → Walk.IsPath location →
      Walk.IsPath (atPath w.disk location).path →
      (w.disk.HasFile (atPath w.disk location).path ↔ w.disk.HasFile location)) := by
  refine ⟨?_, Path.isAbsolute_absolute (Location.isAbsolute_toPath _) hname,
    Url.IsForeign.beginsWith, fun hcwd hidle hpath habsolute =>
      Disk.hasFile_absolute_iff hcwd hpath hidle habsolute⟩
  by_cases hforeign : Url.IsForeign location
  · obtain ⟨url, hread, hlong⟩ := hforeign
    refine ⟨.error (.failed (.metadata location (.otherScheme url.scheme))), ?_, ?_, ?_, ?_⟩
    · rw [ofLocation_of_long client hread (hscheme url hread) hlong]
      rfl
    · exact iff_of_false nofun fun ⟨hno, _⟩ => hno ⟨url, hread, hlong⟩
    · exact fun hno => absurd ⟨url, hread, hlong⟩ hno
    · intro url' hread' _
      cases hread.symm.trans hread'
      rfl
  · have hno : ∀ url, Url.read location = .ok url → ¬ 1 < url.scheme.length :=
      fun url hread hlong => hforeign ⟨url, hread, hlong⟩
    have hisEmpty : location.isEmpty = false := by simpa using hname
    rw [ofLocation_of_not_foreign client hscheme hforeign]
    by_cases hfile : w.disk.HasFile (atPath w.disk location).path
    · obtain ⟨place, content, hat⟩ := id hfile
      exact ⟨_, runOn_ofPath hisEmpty hat, iff_of_true rfl ⟨hforeign, hfile⟩,
        fun _ hmissing => absurd hfile hmissing,
        fun url hread hlong => absurd hlong (hno url hread)⟩
    · exact ⟨_, runOn_ofPath_of_missing hisEmpty hfile,
        iff_of_false nofun fun ⟨_, hthere⟩ => hfile hthere, fun _ _ => rfl,
        fun url hread hlong => absurd hlong (hno url hread)⟩

end Fetched

/-! ### Names with a colon -/

/-- A folder with files that have a colon in their names, and one that has none. -/
def World.withColons : World where
  disk := .ofTree ["W"] ⟨[(["W"], .folder), (["W", "h:i"], .file [] Disk.defaultMode none),
    (["W", "hh:i"], .file [] Disk.defaultMode none), (["W", "f"], .file [] Disk.defaultMode none)]⟩
  net := ⟨.unreachable, []⟩
  programs := ⟨fun _ _ => .error .notFound, []⟩
  progress := none
  log := []
  isVerbose := false

namespace World

theorem isWorkplace_withColons : withColons.disk.tree.IsWorkplace withColons.disk.cwd where
  names := by
    intro name hname
    rw [List.mem_singleton.mp hname]
    exact ⟨by decide, by decide, by decide⟩
  folders := by
    rintro front hfront
    rcases List.prefix_cons_iff.mp hfront with rfl | ⟨rest, rfl, hrest⟩
    · rfl
    · rw [List.prefix_nil.mp hrest]
      rfl

end World

namespace Fetched

/-- One letter before the colon is a disk drive, so the name is a path, and the file is found. -/
theorem finds_local_file_behind_drive :
    "h:i" ≠ "" ∧
      (∀ url, Url.read "h:i" = .ok url → url.scheme ∉ ["http", "https", "file"]) ∧
      runOn (ofLocation ⟨""⟩ "h:i") .withColons =
        (.ok ⟨"/W/h:i", .ofFilePath "/W/h:i", none⟩, .withColons) := by
  have hread : Url.read "h:i" = .ok ⟨"h", false, "", none, none, none, "i", none, none⟩ := by
    decide +kernel
  have hscheme : ∀ url, Url.read "h:i" = .ok url → url.scheme ∉ ["http", "https", "file"] := by
    intro url h
    cases hread.symm.trans h
    decide
  obtain ⟨⟨result, hrun, hfound, -, -⟩, -, -, hsame⟩ :=
    finds_local_file ⟨""⟩ "h:i" .withColons (by decide) hscheme
  have hpath : Path.absolute (Location.toPath ["W"]) "h:i" = "/W/h:i" := by decide +kernel
  have hfile := (hsame World.isWorkplace_withColons (by decide) (by decide) (by decide +kernel)).mpr
    ⟨["W", "h:i"], [], Disk.fileAt_of_name (by decide) (by decide) (by decide) (by rfl)⟩
  have hforeign : ¬ Url.IsForeign "h:i" := by
    rintro ⟨url, h, hlong⟩
    cases hread.symm.trans h
    exact absurd hlong (by decide)
  refine ⟨by decide, hscheme, ?_⟩
  rw [hrun, hfound.mpr ⟨hforeign, hfile⟩, ← hpath]
  rfl

/-- **Names that mislead**: a file whose name looks like a URL is there and is refused, and a path
with a dot behind the name of a file leads nowhere, and yet the file is found. -/
theorem name_of_file_misleads :
    (World.withColons.disk.HasFile "hh:i" ∧
      runOn (ofLocation ⟨""⟩ "hh:i") .withColons =
        (.error (.failed (.metadata "hh:i" (.otherScheme "hh"))), .withColons)) ∧
      ¬ World.withColons.disk.HasFile "f/." ∧
        runOn (ofLocation ⟨""⟩ "f/.") .withColons =
          (.ok ⟨"/W/f", .ofFilePath "/W/f", none⟩, .withColons) := by
  refine ⟨⟨⟨["W", "hh:i"], [], Disk.fileAt_of_name (by decide) (by decide) (by decide) (by rfl)⟩,
    ?_⟩, ?_, ?_⟩
  · have hread : Url.read "hh:i" = .ok ⟨"hh", false, "", none, none, none, "i", none, none⟩ := by
      decide +kernel
    rw [ofLocation_of_long ⟨""⟩ hread (by decide) (by decide)]
    rfl
  · -- the dot is a step behind a file
    rintro ⟨place, content, mode, time, hw⟩
    have hname : Walk.IsName "f" := by decide
    have hpath : Walk.IsPath "f/." := by decide
    rw [Tree.walk_of_isPath hpath, show Walk.steps "f/." = ["f", "."] by decide +kernel,
      Walk.go_file hname (by rfl), if_neg (List.cons_ne_nil _ _)] at hw
    cases hw
  · have hread : Url.read "f/." = .error .relativeWithoutBase := by decide +kernel
    have hpath : Path.absolute (Location.toPath ["W"]) "f/." = "/W/f" := by decide +kernel
    have hfile : World.withColons.disk.FileAt "/W/f" ["W", "f"] [] :=
      ⟨_, _, Tree.walk_of_leads (by decide) (by decide +kernel : Walk.steps "/W/f" = ["W", "f"])
        (.enter (by decide) (by rfl) (.file (by decide) (by rfl)))⟩
    unfold ofLocation
    rw [hread, ← hpath]
    exact runOn_ofPath (by decide) (hpath.symm ▸ hfile)

end Fetched
end RangeSync
