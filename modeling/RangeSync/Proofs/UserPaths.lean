import RangeSync.Proofs.Absolute

/-!
# The path that a user means

A user may type a path as it comes: from the home directory with `~`, from the working directory, or
from the root, with dots and with slashes that are repeated. What is made of it is absolute, since
either the home directory or the working directory or the root is put in front, and its names are
those of what is in front followed by those that were typed
(`RangeSync.Path.normalizes_user_paths`). Names are not interpreted: `..` stays, and so does a `~`
that is not at the beginning or that belongs to a name.

To do this again should change nothing, and it is not enough to look at names for that: the slashes
count as well, two of them at the beginning and one at the end. So
`RangeSync.Path.IsNormal` describes the texts themselves, by how they are put together: from a root,
by adding a name or a slash at the end. A path that is made absolute is put together in this way
(`RangeSync.Path.isNormal_absolute`), and one that is so put together is its own absolute form
(`RangeSync.Path.IsNormal.absolute_eq`), whatever the working directory. Working directories are
in this form themselves, as far as the tree knows them (`RangeSync.Location.isNormal_toPath`).
-/

namespace RangeSync

open Text Walk

namespace Path

variable {home cwd path front name rest : String}

/-! ### Slashes and roots -/

/-- A name stands behind a path with one slash between them. -/
theorem join_eq (hpath : path ≠ "") (hname : isAbsolute name = false) :
    join path name = if endsInSlash path then path ++ name else path ++ "/" ++ name := by
  have hempty : path.isEmpty = false := by simpa using hpath
  simp only [join, hname, hempty, Bool.false_or, Bool.false_eq_true, if_false]

/-- A name behind a slash that is there already. -/
theorem join_join_empty (hpath : path ≠ "") (hname : IsSegment name) :
    join (join path "") name = join path name := by
  obtain ⟨hslash, _⟩ := join_empty hpath
  have hboth : join path "" ≠ "" := by
    intro hempty
    rw [hempty] at hslash
    cases hslash
  rw [join_eq hboth hname.isAbsolute, if_pos hslash, join_eq hpath hname.isAbsolute,
    join_eq hpath rfl]
  split
  · rw [String.append_empty]
  · rw [String.append_empty]

/-- The root is seen in the first three characters. -/
theorem rootOf_eq_ite (path : String) : rootOf path =
    if path.toList.take 2 = ['/', '/'] ∧ path.toList[2]? ≠ some '/' then "//" else "/" := by
  unfold rootOf
  rcases path.toList with _ | ⟨a, _ | ⟨b, _ | ⟨c, more⟩⟩⟩ <;> grind

/-- What is added at the end of an absolute path leaves the root as it is. -/
theorem rootOf_join (hpath : isAbsolute path = true) (hname : isAbsolute name = false) :
    rootOf (join path name) = rootOf path := by
  have hfirst : name.toList[0]? ≠ some '/' := by
    rw [← List.head?_eq_getElem?]
    simpa [isAbsolute] using hname
  rw [join_eq (ne_empty_of_isAbsolute hpath) hname, rootOf_eq_ite, rootOf_eq_ite]
  unfold isAbsolute at hpath
  unfold endsInSlash
  -- a path of fewer than three characters is a root, or it has a name after the root
  rcases htext : path.toList with _ | ⟨a, _ | ⟨b, _ | ⟨c, more⟩⟩⟩
  · simp [htext] at hpath
  · have htake : name.toList.take 1 ≠ ['/'] := by
      cases hchars : name.toList <;> simp_all
    simp_all
  · simp_all [apply_ite String.toList]
    split <;> simp_all
  · simp only [apply_ite String.toList, String.toList_append, htext]
    split <;> simp

/-! ### Paths in normal form -/

/-- **The path is in normal form**: it is put together from a root by adding names, with one slash
between them, and possibly a slash at the end. -/
inductive IsNormal : String → Prop
  | root : IsNormal "/"
  | doubleRoot : IsNormal "//"
  | name {path name : String} : IsNormal path → IsSegment name → name ≠ "." →
      IsNormal (join path name)
  | slash {path : String} : IsNormal path → IsNormal (join path "")

namespace IsNormal

theorem isAbsolute (h : IsNormal path) : Path.isAbsolute path = true := by
  induction h with
  | root | doubleRoot => rfl
  | name _ _ _ ih | slash _ ih => exact isAbsolute_join ih _

theorem foldl_join (h : IsNormal front) {names : List String}
    (hnames : ∀ name ∈ names, IsSegment name ∧ name ≠ ".") :
    IsNormal (names.foldl join front) := by
  induction names generalizing front with
  | nil => exact h
  | cons name rest ih =>
    obtain ⟨⟨hname, hdot⟩, hrest⟩ := List.forall_mem_cons.mp hnames
    exact ih (h.name hname hdot) hrest

end IsNormal

theorem names_join (hname : IsSegment name) (hdot : name ≠ ".") :
    names (join path name) = names path ++ [name] := by
  rw [names_eq_filter, segments_join path hname, List.filter_append, ← names_eq_filter]
  simp [hdot]

theorem names_join_empty (hpath : path ≠ "") : names (join path "") = names path := by
  rw [names_eq_filter, (join_empty hpath).2, ← names_eq_filter]

theorem of_mem_names (h : name ∈ names path) : IsSegment name ∧ name ≠ "." := by
  refine ⟨isSegment_of_mem_names h, ?_⟩
  rw [names_eq_filter] at h
  exact of_decide_eq_true (List.mem_filter.mp h).2

/-! ### Absolute forms -/

/-- **The absolute form is a normal form**, if the working directory is in one, or has no part in
it. -/
theorem isNormal_absolute (hpath : path ≠ "") (hcwd : isAbsolute path = true ∨ IsNormal cwd) :
    IsNormal (absolute cwd path) := by
  have hbase : IsNormal (base cwd path) := by
    unfold base
    split
    · rcases rootOf_eq path with hroot | hroot <;> rw [hroot]
      exacts [.root, .doubleRoot]
    · exact hcwd.resolve_left ‹_›
  have hwhole := hbase.foldl_join fun name (hname : name ∈ names path) => of_mem_names hname
  rw [absolute_eq hpath]
  split
  · exact hwhole.slash
  · exact hwhole

/-- **A normal form is its own absolute form**, wherever it is seen from. -/
theorem IsNormal.absolute_eq (h : IsNormal path) (cwd : String) : absolute cwd path = path := by
  have hpath := ne_empty_of_isAbsolute h.isAbsolute
  rw [Path.absolute_eq hpath, base, if_pos h.isAbsolute]
  induction h with
  | root | doubleRoot => decide
  | @name path name hnormal hname hdot ih =>
    have hne := ne_empty_of_isAbsolute hnormal.isAbsolute
    have ih := ih hne
    rw [endsInSlash_join path hname, if_neg Bool.false_ne_true, names_join hname hdot,
      rootOf_join hnormal.isAbsolute hname.isAbsolute, List.foldl_append]
    have hroot : Path.isAbsolute (rootOf path) = true := by
      rcases rootOf_eq path with h | h <;> rw [h] <;> rfl
    have hwhole := ne_empty_of_isAbsolute (isAbsolute_foldl_join hroot (names path))
    generalize (names path).foldl join (rootOf path) = whole at ih hwhole ⊢
    change join whole name = join path name
    rw [← ih]
    split
    · exact (join_join_empty hwhole hname).symm
    · rfl
  | @slash path hnormal ih =>
    have hne := ne_empty_of_isAbsolute hnormal.isAbsolute
    have ih := ih hne
    rw [if_pos (join_empty hne).1, names_join_empty hne, rootOf_join hnormal.isAbsolute rfl]
    cases hslash : endsInSlash path with
    | true =>
      rw [hslash, if_pos rfl] at ih
      rw [ih, join_eq hne rfl, if_pos hslash, String.append_empty]
    | false =>
      rw [hslash, if_neg Bool.false_ne_true] at ih
      rw [ih]

/-- The names of the absolute form. -/
theorem names_absolute (hcwd : isAbsolute cwd = true) (hpath : path ≠ "") :
    names (absolute cwd path) = (if isAbsolute path then [] else names cwd) ++ names path := by
  have hnames : (names path).filter (· ≠ ".") = names path :=
    List.filter_eq_self.mpr fun name hname => decide_eq_true (of_mem_names hname).2
  rw [names_eq_filter, segments_absolute hcwd hpath, List.filter_append, hnames, base]
  split
  · rcases rootOf_eq path with hroot | hroot <;> rw [hroot] <;> rfl
  · rw [← names_eq_filter]

/-! ### Home directories -/

/-- **The path asks for a place in the home directory**: it is `~`, and then nothing or separators
with the rest of the path behind them. -/
def AsksHome (path rest : String) : Prop :=
  ∃ gap, path.toList = '~' :: (gap ++ rest.toList) ∧ (∀ c ∈ gap, isSeparator c = true) ∧
    (gap = [] → rest = "") ∧ ∀ c, rest.toList.head? = some c → isSeparator c = false

theorem AsksHome.isAbsolute (h : AsksHome path rest) : isAbsolute rest = false := by
  obtain ⟨_, _, _, _, hrest⟩ := h
  unfold Path.isAbsolute
  cases hhead : rest.toList.head? with
  | none => rfl
  | some c =>
    refine beq_eq_false_iff_ne.mpr fun hslash => ?_
    rw [Option.some.inj hslash] at hhead
    exact absurd (hrest '/' hhead) (by decide)

theorem expanded_of_asksHome (h : AsksHome path rest) : expanded home path = join home rest := by
  obtain ⟨gap, hpath, hgap, hnone, hrest⟩ := h
  have hdrop : (gap ++ rest.toList).dropWhile isSeparator = rest.toList := by
    rw [List.dropWhile_append_of_pos hgap]
    cases hchars : rest.toList with
    | nil => rfl
    | cons c more =>
      rw [hchars] at hrest
      exact List.dropWhile_cons_of_neg (Bool.eq_false_iff.mp (hrest c rfl))
  unfold expanded
  cases gap with
  | nil =>
    obtain rfl := hnone rfl
    rw [hpath]
    rfl
  | cons c more =>
    rw [List.cons_append] at hpath hdrop
    simp only [hpath, hgap c List.mem_cons_self, if_true, hdrop, String.ofList_toList]

/-- Any other path is left as it is. -/
theorem expanded_of_not_asksHome (h : ∀ rest, ¬ AsksHome path rest) :
    expanded home path = path := by
  rcases htext : path.toList with _ | ⟨c, more⟩
  · simp only [expanded, htext]
  by_cases htilde : c = '~'
  · subst htilde
    rcases more with _ | ⟨d, rest⟩
    · exact absurd ⟨[], htext, nofun, fun _ => rfl, nofun⟩ (h "")
    have hname : isSeparator d = false := by
      refine Bool.eq_false_iff.mpr fun hd => h (String.ofList ((d :: rest).dropWhile isSeparator))
        ⟨(d :: rest).takeWhile isSeparator, ?_, ?_, ?_, ?_⟩
      · rw [String.toList_ofList, List.takeWhile_append_dropWhile, htext]
      · exact List.all_eq_true.mp List.all_takeWhile
      · rw [List.takeWhile_cons_of_pos hd]
        exact nofun
      · intro e he
        rw [String.toList_ofList] at he
        have hnot := List.head?_dropWhile_not isSeparator (d :: rest)
        rw [he] at hnot
        simpa using hnot
    simp only [expanded, htext, hname, Bool.false_eq_true, if_false]
  · simp [expanded, htext, htilde]

theorem not_asksHome_of_isAbsolute (hpath : isAbsolute path = true) : ¬ AsksHome path rest := by
  rintro ⟨gap, htext, _⟩
  rw [isAbsolute, htext] at hpath
  cases hpath

/-- What is made absolute is not empty, and it is absolute already if the home directory is in
it. -/
theorem expanded_cases (hhome : isAbsolute home = true) (hpath : path ≠ "") :
    expanded home path ≠ "" ∧
      ((∃ rest, AsksHome path rest) → isAbsolute (expanded home path) = true) := by
  by_cases hasks : ∃ rest, AsksHome path rest
  · obtain ⟨rest, hrest⟩ := hasks
    have habsolute := isAbsolute_join hhome rest
    rw [expanded_of_asksHome hrest]
    exact ⟨ne_empty_of_isAbsolute habsolute, fun _ => habsolute⟩
  · rw [expanded_of_not_asksHome (not_exists.mp hasks)]
    exact ⟨hpath, fun h => absurd h hasks⟩

/-- The names of a path in the home directory. -/
theorem names_join_rest (hrest : AsksHome path rest) :
    names (join home rest) = names home ++ names rest := by
  rw [names_eq_filter, segments_join_relative home hrest.isAbsolute, List.filter_append,
    ← names_eq_filter, ← names_eq_filter]

/-- Idle segments of an absolute form are those of the working directory. -/
theorem dot_mem_segments_absolute (hcwd : isAbsolute cwd = true) (hpath : path ≠ "")
    (h : "." ∈ segments (absolute cwd path)) : "." ∈ segments cwd := by
  rw [segments_absolute hcwd hpath] at h
  have hbase := (List.mem_append.mp h).resolve_right fun hdot => (of_mem_names hdot).2 rfl
  unfold base at hbase
  split at hbase
  · rcases rootOf_eq path with hroot | hroot
    · exact absurd (hroot ▸ hbase) (by decide)
    · exact absurd (hroot ▸ hbase) (by decide)
  · exact hbase

end Path

namespace Location

/-- A name is the last part of its path. -/
theorem toPath_append (front : Location) (name : String) :
    toPath (front ++ [name]) = String.join (front.map ("/" ++ ·)) ++ "/" ++ name := by
  cases front with
  | nil => simp [toPath]
  | cons first rest => simp [toPath, String.append_assoc]

/-- The path of a folder in a folder. -/
theorem toPath_concat {front : Location} {name : String} (hfront : ∀ name ∈ front, IsSegment name)
    (hname : IsSegment name) : toPath (front ++ [name]) = Path.join front.toPath name := by
  rw [Path.join_eq (Path.ne_empty_of_isAbsolute (isAbsolute_toPath front)) hname.isAbsolute,
    toPath_append]
  cases front using List.reverseRecOn with
  | nil => rfl
  | append_singleton before last =>
    have hlast := hfront last (List.mem_append_right _ List.mem_cons_self)
    have hends : Path.endsInSlash (toPath (before ++ [last])) = false := by
      rw [toPath_append]
      exact endsInSlash_append _ hlast
    rw [hends, if_neg Bool.false_ne_true, toPath_append]
    simp [String.append_assoc]

/-- **The path of a folder is in normal form**, if its names are names. -/
theorem isNormal_toPath {folder : Location}
    (hnames : ∀ name ∈ folder, IsSegment name ∧ name ≠ ".") : Path.IsNormal folder.toPath := by
  induction folder using List.reverseRecOn with
  | nil => exact .root
  | append_singleton front name ih =>
    obtain ⟨hfront, hname⟩ := List.forall_mem_append.mp hnames
    obtain ⟨hname, hdot⟩ := hname name List.mem_cons_self
    rw [toPath_concat (fun name hmem => (hfront name hmem).1) hname]
    exact (ih hfront).name hname hdot

end Location

namespace Path

/-- **What is made of the path that a user types.** It is absolute. If it asks for a place in the
home directory, its names are those of the home directory and of the rest; otherwise they are those
of the path, behind those of the working directory if the path does not begin at the root. No name
is a dot, and only a working directory that is written with dots puts any into the text. To do it
again gives the same names, and the same text if the working directory is in normal form. -/
theorem normalizes_user_paths {home cwd path : String} (hhome : isAbsolute home = true)
    (hcwd : isAbsolute cwd = true) (hpath : path ≠ "") :
    isAbsolute (normalized home cwd path) = true ∧
    (∀ rest, AsksHome path rest →
      names (normalized home cwd path) = names home ++ names rest) ∧
    ((∀ rest, ¬ AsksHome path rest) → names (normalized home cwd path) =
      (if isAbsolute path then [] else names cwd) ++ names path) ∧
    "." ∉ names (normalized home cwd path) ∧
    ("." ∈ segments (normalized home cwd path) → "." ∈ segments cwd) ∧
    names (normalized home cwd (normalized home cwd path)) = names (normalized home cwd path) ∧
    (IsNormal cwd → IsNormal (normalized home cwd path) ∧
      normalized home cwd (normalized home cwd path) = normalized home cwd path) := by
  obtain ⟨hexpanded, hhomely⟩ := expanded_cases hhome hpath
  have habsolute : isAbsolute (normalized home cwd path) = true :=
    isAbsolute_absolute hcwd hexpanded
  have hplace := ne_empty_of_isAbsolute habsolute
  -- an absolute path does not ask for the home directory, so it is only made absolute again
  have hagain : normalized home cwd (normalized home cwd path) =
      absolute cwd (normalized home cwd path) := by
    rw [normalized, expanded_of_not_asksHome fun rest => not_asksHome_of_isAbsolute habsolute]
  refine ⟨habsolute, fun rest hrest => ?_, fun hasks => ?_, fun hdot => (of_mem_names hdot).2 rfl,
    dot_mem_segments_absolute hcwd hexpanded, ?_, fun hnormal => ?_⟩
  · rw [normalized, names_absolute hcwd hexpanded, if_pos (hhomely ⟨rest, hrest⟩),
      expanded_of_asksHome hrest, List.nil_append, names_join_rest hrest]
  · rw [normalized, names_absolute hcwd hexpanded, expanded_of_not_asksHome hasks]
  · rw [hagain, names_absolute hcwd hplace, if_pos habsolute, List.nil_append]
  · have hform : IsNormal (normalized home cwd path) :=
      isNormal_absolute hexpanded (Or.inr hnormal)
    exact ⟨hform, by rw [hagain, hform.absolute_eq]⟩

/-- A path that asks for the home directory, with separators of both kinds, dots, and a name with a
`~` in it. -/
def typed : String := "~\\//a/./..//~b/"

theorem asksHome_typed : AsksHome typed "a/./..//~b/" :=
  ⟨['\\', '/', '/'], rfl, by simp [isSeparator], nofun, fun _ hc => Option.some.inj hc ▸ rfl⟩

/-- What is made of a path in the home directory, once and twice. -/
theorem normalizes_user_paths_typed :
    isAbsolute "/home/u" = true ∧ isAbsolute "/work" = true ∧ typed ≠ "" ∧
      names (normalized "/home/u" "/work" typed) = ["home", "u", "a", "..", "~b"] ∧
      normalized "/home/u" "/work" typed = "/home/u/a/../~b/" ∧
      normalized "/home/u" "/work" "/home/u/a/../~b/" = "/home/u/a/../~b/" := by
  have hname : IsSegment "work" := ⟨by decide, by decide⟩
  have hwork : IsNormal "/work" := IsNormal.root.name hname (by decide)
  obtain ⟨-, hnames, -, -, -, -, hagain⟩ :=
    @normalizes_user_paths "/home/u" "/work" typed rfl rfl (by decide)
  have hplace : normalized "/home/u" "/work" typed = "/home/u/a/../~b/" := by decide +kernel
  refine ⟨rfl, rfl, by decide, hnames _ asksHome_typed, hplace, ?_⟩
  rw [← hplace]
  exact (hagain hwork).2

end Path
end RangeSync
