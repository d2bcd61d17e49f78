import Mathlib.Data.List.Induction
import RangeSync.Proofs.Walk

/-!
# The absolute form of a path

The absolute form of a path puts the working directory in front and leaves out the segments that say
nothing. It is computed from the text alone, so it has to be shown that it leads where the path
itself leads from the working directory (`RangeSync.Tree.walk_absolute`).

An idle segment is a step that stays where it is, and as such it does no harm – unless it is the
last one. A walk treats its last name in a way of its own: there may be a file at it, or nothing at
all. In `a/.` the last step is the dot, so `a` has to be a folder, while in the absolute form it
need not be one. A path that ends in a dot is therefore left out
(`RangeSync.Path.EndsIdle`). A slash at the end means the same as a dot, and it is kept, so it makes
no difference.

What carries this is that a walk depends on the end of its path only through where the end leads and
whether there is any (`RangeSync.Walk.go_append_congr`), so that steps can be left out one at a time
(`RangeSync.Walk.go_filter_append`).
-/

namespace RangeSync

open Text

namespace Walk

variable {t : Tree} {follow : Bool} {links : Nat} {here : Location} {path name base : String}
  {front back back' names : List String}

/-! ### Steps that can be left out -/

/-- A name that no entry can have ends a walk. -/
theorem go_of_long (hdot : name ≠ ".") (hdots : name ≠ "..")
    (hlong : nameLimit < name.utf8ByteSize) :
    go t follow links here (name :: back) = .error .invalidFilename := by
  rw [go, if_neg hdot, if_neg hdots, if_pos hlong]

/-- **The end of a path may be exchanged** for one that leads to the same places. -/
theorem go_append_congr (hnil : back = [] ↔ back' = [])
    (h : ∀ links here, go t follow links here back = go t follow links here back')
    (links : Nat) (here : Location) (front : List String) :
    go t follow links here (front ++ back) = go t follow links here (front ++ back') := by
  -- a link puts its own steps in front, so the induction on the front is inside of one on the links
  induction links using Nat.strongRecOn generalizing here front with
  | ind links ihlinks =>
  induction front generalizing here with
  | nil => exact h links here
  | cons name front ih =>
    rw [List.cons_append, List.cons_append]
    by_cases hdot : name = "."
    · rw [hdot, go_stay, go_stay, ih]
    by_cases hdots : name = ".."
    · rw [hdots, go_up, go_up, ih]
    by_cases hlong : nameLimit < name.utf8ByteSize
    · rw [go_of_long hdot hdots hlong, go_of_long hdot hdots hlong]
    have hname : IsName name := ⟨hdot, hdots, Nat.not_lt.mp hlong⟩
    have hend : front ++ back = [] ↔ front ++ back' = [] := by
      rw [List.append_eq_nil_iff, List.append_eq_nil_iff, hnil]
    rw [go_name hname, go_name hname]
    cases t.get? (here ++ [name]) with
    | none => simp only [hend]
    | some entry =>
      cases entry with
      | folder => exact ih (here ++ [name])
      | file => simp only [hend]
      | link target =>
        simp only [hend]
        cases links with
        | zero => rfl
        | succ links =>
          simp only [← List.append_assoc,
            ihlinks links (Nat.lt_succ_self links) (start here target) (steps target ++ front)]

/-- **Steps that stay where they are** can be left out, as long as something follows. -/
theorem go_filter_append (hback : back ≠ []) (links : Nat) (here : Location)
    (front : List String) :
    go t follow links here (front.filter (· ≠ ".") ++ back) =
      go t follow links here (front ++ back) := by
  induction front generalizing links here with
  | nil => rfl
  | cons name front ih =>
    by_cases hdot : name = "."
    · rw [List.filter_cons_of_neg (by simpa using hdot), List.cons_append, hdot, go_stay, ih]
    · rw [List.filter_cons_of_pos (by simpa using hdot)]
      exact go_append_congr (by simp [hback]) ih links here [name]

/-! ### The segments of a text -/

/-- The segment is one that a path is made of. -/
structure IsSegment (name : String) : Prop where
  ne_empty : name ≠ ""
  no_slash : '/' ∉ name.toList

theorem IsSegment.toList_ne_nil (h : IsSegment name) : name.toList ≠ [] :=
  mt String.toList_eq_nil_iff.mp h.ne_empty

theorem IsSegment.segments (h : IsSegment name) : segments name = [name] := by
  have hne : name.toList.isEmpty = false := by simpa using h.ne_empty
  rw [Walk.segments, fields_of_not_mem h.no_slash, List.filter_cons_of_pos (by rw [hne]; rfl),
    List.filter_nil, List.map_singleton, String.ofList_toList]

theorem IsSegment.isAbsolute (h : IsSegment name) : Path.isAbsolute name = false := by
  unfold Path.isAbsolute
  cases hchars : name.toList with
  | nil => rfl
  | cons c rest =>
    have hc : c ≠ '/' := fun hc => h.no_slash (by rw [hchars, hc]; exact List.mem_cons_self)
    simpa using hc

theorem IsSegment.endsInSlash (h : IsSegment name) : Path.endsInSlash name = false := by
  unfold Path.endsInSlash
  refine beq_eq_false_iff_ne.mpr fun hlast => h.no_slash ?_
  exact List.mem_of_getLast? hlast

theorem isSegment_of_mem_segments (h : name ∈ segments path) : IsSegment name := by
  obtain ⟨part, hpart, rfl⟩ := List.mem_map.mp h
  obtain ⟨hmem, hne⟩ := List.mem_filter.mp hpart
  refine ⟨fun hempty => ?_, ?_⟩
  · rw [String.ofList_eq_empty_iff.mp hempty] at hne
    cases hne
  · rw [String.toList_ofList]
    exact not_mem_of_mem_fields hmem

/-- The segments around a slash. -/
theorem segments_append (before after : List Char) :
    segments (String.ofList (before ++ '/' :: after)) =
      segments (String.ofList before) ++ segments (String.ofList after) := by
  simp only [segments, String.toList_ofList, fields_append, List.filter_append, List.map_append]

/-- A path that ends in a slash, cut before it. -/
theorem exists_slash (h : Path.endsInSlash path = true) :
    ∃ before, path.toList = before ++ ['/'] := by
  obtain ⟨before, hpath⟩ := List.getLast?_eq_some_iff.mp (beq_iff_eq.mp h)
  exact ⟨before, hpath⟩

/-- **A path behind a path**, with the segments of both, unless it begins at the root. -/
theorem segments_join_relative (base : String) (hname : Path.isAbsolute name = false) :
    segments (Path.join base name) = segments base ++ segments name := by
  unfold Path.join
  rw [hname, if_neg Bool.false_ne_true]
  by_cases hempty : base = ""
  · subst hempty
    rfl
  have hisEmpty : base.isEmpty = false := by simpa using hempty
  rw [hisEmpty, Bool.false_or]
  by_cases hslash : Path.endsInSlash base = true
  · obtain ⟨before, hbase⟩ := exists_slash hslash
    have hboth : base ++ name = String.ofList (before ++ '/' :: name.toList) := by
      rw [← String.toList_inj, String.toList_append, String.toList_ofList, hbase]
      simp
    have hfront : segments base = segments (String.ofList before) := by
      rw [← String.ofList_toList (s := base), hbase, segments_append]
      exact List.append_nil _
    rw [if_pos hslash, hboth, segments_append, String.ofList_toList, hfront]
  · have hboth : base ++ "/" ++ name = String.ofList (base.toList ++ '/' :: name.toList) := by
      rw [← String.toList_inj, String.toList_append, String.toList_append, String.toList_ofList]
      simp
    rw [if_neg hslash, hboth, segments_append, String.ofList_toList, String.ofList_toList]

/-- **A segment behind a path.** -/
theorem segments_join (base : String) (hname : IsSegment name) :
    segments (Path.join base name) = segments base ++ [name] := by
  rw [segments_join_relative base hname.isAbsolute, hname.segments]

/-- The segment at the end of a text decides about a slash there. -/
theorem endsInSlash_append (front : String) (hname : IsSegment name) :
    Path.endsInSlash (front ++ name) = false := by
  rw [← hname.endsInSlash]
  unfold Path.endsInSlash
  rw [String.toList_append, List.getLast?_append,
    List.getLast?_eq_some_getLast hname.toList_ne_nil, Option.some_or]

theorem endsInSlash_join (base : String) (hname : IsSegment name) :
    Path.endsInSlash (Path.join base name) = false := by
  unfold Path.join
  rw [hname.isAbsolute, if_neg Bool.false_ne_true]
  split
  · exact endsInSlash_append base hname
  · exact endsInSlash_append (base ++ "/") hname

/-- What stands behind an absolute path does not change that it is absolute. -/
theorem isAbsolute_append (hbase : Path.isAbsolute base = true) (name : String) :
    Path.isAbsolute (base ++ name) = true := by
  unfold Path.isAbsolute at hbase ⊢
  rw [String.toList_append]
  cases hchars : base.toList with
  | nil =>
    rw [hchars] at hbase
    cases hbase
  | cons c rest =>
    rw [hchars] at hbase
    exact hbase

theorem isAbsolute_join (hbase : Path.isAbsolute base = true) (name : String) :
    Path.isAbsolute (Path.join base name) = true := by
  unfold Path.join
  split
  · assumption
  · split
    · exact isAbsolute_append hbase name
    · exact isAbsolute_append (isAbsolute_append hbase "/") name

/-! ### Segments behind a base -/

theorem isAbsolute_foldl_join (hbase : Path.isAbsolute base = true) (names : List String) :
    Path.isAbsolute (names.foldl Path.join base) = true := by
  induction names generalizing base with
  | nil => exact hbase
  | cons name rest ih => exact ih (isAbsolute_join hbase name)

theorem segments_foldl_join (base : String) (hnames : ∀ name ∈ names, IsSegment name) :
    segments (names.foldl Path.join base) = segments base ++ names := by
  induction names generalizing base with
  | nil => exact (List.append_nil _).symm
  | cons name rest ih =>
    obtain ⟨hname, hrest⟩ := List.forall_mem_cons.mp hnames
    rw [List.foldl_cons, ih (Path.join base name) hrest, segments_join base hname,
      List.append_assoc, List.singleton_append]

theorem endsInSlash_foldl_join (base : String) (hnames : ∀ name ∈ names, IsSegment name)
    (hne : names ≠ []) : Path.endsInSlash (names.foldl Path.join base) = false := by
  obtain ⟨front, name, rfl⟩ := Tree.exists_concat hne
  rw [List.foldl_append]
  exact endsInSlash_join _ (hnames name (List.mem_append_right _ List.mem_cons_self))

end Walk

/-! ### The names of a path -/

namespace Path

open Walk

variable {path cwd : String}

/-- The path ends in a segment that says nothing, and not in a slash. -/
def EndsIdle (path : String) : Prop :=
  (fields '/' path.toList).getLast? = some ['.']

instance (path : String) : Decidable (EndsIdle path) :=
  inferInstanceAs (Decidable ((fields '/' path.toList).getLast? = some ['.']))

/-- The names are the segments that say something. -/
theorem names_eq_filter (path : String) : names path = (segments path).filter (· ≠ ".") := by
  unfold names segments
  rw [List.filter_map, List.filter_filter]
  congr 1
  refine List.filter_congr fun segment _ => ?_
  have hdot : String.ofList segment = "." ↔ segment = ['.'] := by
    rw [← String.toList_inj, String.toList_ofList]
    rfl
  rw [Bool.and_comm]
  simp only [isIdle, Bool.not_or, ne_eq, decide_not, Function.comp_apply, hdot,
    Bool.beq_eq_decide_eq]

theorem isSegment_of_mem_names {name : String} (h : name ∈ names path) : IsSegment name := by
  rw [names_eq_filter] at h
  exact isSegment_of_mem_segments (List.mem_filter.mp h).1

/-- A path that does not end in a slash or idly has a last segment, and that is a name. -/
theorem exists_last (hempty : path ≠ "") (hslash : endsInSlash path = false)
    (hidle : ¬ EndsIdle path) :
    ∃ front name, segments path = front ++ [name] ∧ name ≠ "." := by
  obtain ⟨front, last, hfields⟩ : ∃ front last, fields '/' path.toList = front ++ [last] :=
    ⟨_, _, (List.dropLast_concat_getLast (fields_ne_nil '/' path.toList)).symm⟩
  have hne : last ≠ [] := by
    rintro rfl
    -- an empty last segment is behind a slash, or it is the whole path
    have hpath := joined_fields '/' path.toList
    rw [hfields] at hpath
    cases front with
    | nil => exact hempty (String.toList_eq_nil_iff.mp hpath.symm)
    | cons first more =>
      rw [joined_append (List.cons_ne_nil _ _) (List.cons_ne_nil _ _)] at hpath
      unfold endsInSlash at hslash
      rw [← hpath] at hslash
      simp [joined] at hslash
  refine ⟨(front.filter (!·.isEmpty)).map String.ofList, String.ofList last, ?_, ?_⟩
  · have hlast : [last].filter (!·.isEmpty) = [last] :=
      List.filter_cons_of_pos (by simpa using hne)
    rw [segments, hfields, List.filter_append, hlast, List.map_append, List.map_singleton]
  · intro hdot
    refine hidle ?_
    rw [EndsIdle, hfields, List.getLast?_concat, ← String.toList_ofList (l := last), hdot]
    rfl

/-- **A path leads where its names lead**, with the step of a slash at the end. -/
theorem go_names {t : Tree} {follow : Bool} {links : Nat} {here : Location} (hempty : path ≠ "")
    (hidle : ¬ EndsIdle path) :
    go t follow links here (names path ++ slashStep path) =
      go t follow links here (steps path) := by
  rw [steps_eq_segments, names_eq_filter]
  cases hslash : endsInSlash path with
  | true =>
    have hstep : slashStep path = ["."] := if_pos hslash
    rw [hstep, go_filter_append (List.cons_ne_nil _ _)]
  | false =>
    have hstep : slashStep path = [] := if_neg (Bool.eq_false_iff.mp hslash)
    obtain ⟨front, name, hsegments, hname⟩ := exists_last hempty hslash hidle
    rw [hstep, List.append_nil, List.append_nil, hsegments, List.filter_append,
      List.filter_cons_of_pos (by simpa using hname), List.filter_nil,
      go_filter_append (List.cons_ne_nil _ _)]

/-! ### The steps of the absolute form -/

/-- What the absolute form of a path begins with. -/
def base (cwd path : String) : String :=
  if isAbsolute path then rootOf path else cwd

theorem rootOf_eq (path : String) : rootOf path = "/" ∨ rootOf path = "//" := by
  unfold rootOf
  split
  · exact Or.inr rfl
  · split
    · exact Or.inl rfl
    · exact Or.inr rfl
  · exact Or.inl rfl

theorem isAbsolute_base (hcwd : isAbsolute cwd = true) (path : String) :
    isAbsolute (base cwd path) = true := by
  unfold base
  split
  · rcases rootOf_eq path with h | h <;> rw [h] <;> rfl
  · exact hcwd

/-- A slash behind a path. -/
theorem join_empty (hpath : path ≠ "") :
    endsInSlash (join path "") = true ∧ segments (join path "") = segments path := by
  refine ⟨?_, (segments_join_relative path rfl).trans (List.append_nil _)⟩
  have hisEmpty : path.isEmpty = false := by simpa using hpath
  have habsolute : isAbsolute "" = false := rfl
  unfold join
  rw [habsolute, if_neg Bool.false_ne_true, hisEmpty, Bool.false_or]
  cases hslash : endsInSlash path with
  | true =>
    rw [if_pos rfl, String.append_empty]
    exact hslash
  | false =>
    rw [if_neg Bool.false_ne_true, String.append_empty, endsInSlash, String.toList_append]
    exact beq_iff_eq.mpr List.getLast?_concat

/-- The absolute form is its beginning with the names behind it, and with the slash at the end. -/
theorem absolute_eq (hpath : path ≠ "") : absolute cwd path =
    if endsInSlash path then join ((names path).foldl join (base cwd path)) ""
    else (names path).foldl join (base cwd path) := by
  unfold absolute
  rw [if_neg (by simpa using hpath)]
  rfl

/-- **The absolute form is absolute**. -/
theorem isAbsolute_absolute (hcwd : isAbsolute cwd = true) (hpath : path ≠ "") :
    isAbsolute (absolute cwd path) = true := by
  have hwhole := isAbsolute_foldl_join (isAbsolute_base hcwd path) (names path)
  rw [absolute_eq hpath]
  split
  · exact isAbsolute_join hwhole ""
  · exact hwhole

theorem ne_empty_of_isAbsolute (hpath : isAbsolute path = true) : path ≠ "" := by
  rintro rfl
  cases hpath

/-- **The segments of the absolute form**: those of what it begins with, and the names. -/
theorem segments_absolute (hcwd : isAbsolute cwd = true) (hpath : path ≠ "") :
    segments (absolute cwd path) = segments (base cwd path) ++ names path := by
  have hbase := isAbsolute_base hcwd path
  have hsegments := segments_foldl_join (base cwd path)
    fun name (hname : name ∈ names path) => isSegment_of_mem_names hname
  rw [absolute_eq hpath]
  split
  · rw [(join_empty (ne_empty_of_isAbsolute (isAbsolute_foldl_join hbase _))).2, hsegments]
  · exact hsegments

/-- The absolute form of a path that does not end idly ends in a slash if the path does. -/
theorem endsInSlash_absolute (hcwd : isAbsolute cwd = true) (hpath : path ≠ "")
    (hidle : ¬ EndsIdle path) : endsInSlash (absolute cwd path) = endsInSlash path := by
  rw [absolute_eq hpath]
  cases hslash : endsInSlash path with
  | true =>
    have hwhole := isAbsolute_foldl_join (isAbsolute_base hcwd path) (names path)
    rw [if_pos rfl, (join_empty (ne_empty_of_isAbsolute hwhole)).1]
  | false =>
    obtain ⟨front, name, hlast, hdot⟩ := exists_last hpath hslash hidle
    have hsome : names path ≠ [] := by
      rw [names_eq_filter, hlast, List.filter_append,
        List.filter_cons_of_pos (by simpa using hdot)]
      simp
    rw [if_neg Bool.false_ne_true, endsInSlash_foldl_join _ (fun _ => isSegment_of_mem_names) hsome]

/-- **The steps of the absolute form**: those of what it begins with, and the names. -/
theorem steps_absolute (hcwd : isAbsolute cwd = true) (hpath : path ≠ "")
    (hidle : ¬ EndsIdle path) :
    steps (absolute cwd path) =
      segments (base cwd path) ++ (names path ++ slashStep path) := by
  rw [steps_eq_segments, segments_absolute hcwd hpath, slashStep, slashStep,
    endsInSlash_absolute hcwd hpath hidle, List.append_assoc]

end Path

/-! ### Working directories -/

/-- **A place to work in**: a folder in a folder in the root, and so on, with names that a path can
spell. -/
structure Tree.IsWorkplace (t : Tree) (folder : Location) : Prop where
  names : ∀ name ∈ folder, Walk.IsName name ∧ Walk.IsSegment name
  folders : ∀ front, front <+: folder → t.get? front = some .folder

namespace Location

open Walk

variable {t : Tree} {folder : Location}

theorem isAbsolute_toPath (folder : Location) : Path.isAbsolute folder.toPath = true := by
  cases folder with
  | nil => rfl
  | cons name rest =>
    unfold toPath Path.isAbsolute
    simp [String.toList_join]

/-- The path of a folder spells its names. -/
theorem segments_toPath (hnames : ∀ name ∈ folder, IsSegment name) :
    segments folder.toPath = folder := by
  have hjoin : ∀ names : List String, (∀ name ∈ names, IsSegment name) →
      segments (String.join (names.map ("/" ++ ·))) = names := by
    intro names hnames
    induction names using List.reverseRecOn with
    | nil => rfl
    | append_singleton front name ih =>
      obtain ⟨hfront, hname⟩ := List.forall_mem_append.mp hnames
      have htext : String.join ((front ++ [name]).map ("/" ++ ·)) =
          String.ofList ((String.join (front.map ("/" ++ ·))).toList ++ '/' :: name.toList) := by
        rw [← String.toList_inj, String.toList_ofList, String.toList_join, String.toList_join]
        simp
      rw [htext, segments_append, String.ofList_toList, String.ofList_toList, ih hfront,
        (hname name List.mem_cons_self).segments]
  cases folder with
  | nil => rfl
  | cons name rest => exact hjoin (name :: rest) hnames

/-- **The walk to a working directory** goes through its folders. -/
theorem go_workplace {follow : Bool} {links : Nat} (h : t.IsWorkplace folder) (rest : List String) :
    go t follow links [] (folder ++ rest) = go t follow links folder rest := by
  -- by induction on what is still to go, from the folder that was reached
  have hgo : ∀ left reached, folder = reached ++ left →
      go t follow links reached (left ++ rest) = go t follow links folder rest := by
    intro left
    induction left with
    | nil =>
      intro reached hfolder
      rw [hfolder, List.append_nil, List.nil_append]
    | cons name left ih =>
      intro reached hfolder
      have hname : name ∈ folder := by
        rw [hfolder]
        exact List.mem_append_right _ List.mem_cons_self
      have hsplit : folder = reached ++ [name] ++ left := by rw [hfolder]; simp
      have hentry : t.get? (reached ++ [name]) = some .folder :=
        h.folders _ ⟨left, hsplit.symm⟩
      rw [List.cons_append, go_folder (h.names name hname).1 hentry, ih _ hsplit]
  exact hgo folder [] rfl

end Location

/-- **The absolute form of a path leads where the path leads**, if the path does not end idly and
neither text is too long for a path. -/
theorem Tree.walk_absolute {t : Tree} {cwd : Location} {path : String} (follow : Bool)
    (hcwd : t.IsWorkplace cwd) (hpath : Walk.IsPath path) (hidle : ¬ Path.EndsIdle path)
    (habsolute : Walk.IsPath (Path.absolute cwd.toPath path)) :
    t.walk cwd follow (Path.absolute cwd.toPath path) = t.walk cwd follow path := by
  have hempty : path ≠ "" := by simpa using hpath.not_empty
  have hroot := Location.isAbsolute_toPath cwd
  have hstart : Walk.start cwd (Path.absolute cwd.toPath path) = [] :=
    if_pos (Path.isAbsolute_absolute hroot hempty)
  rw [walk_of_isPath habsolute, walk_of_isPath hpath, hstart,
    Path.steps_absolute hroot hempty hidle, ← Path.go_names hempty hidle]
  unfold Path.base Walk.start
  split
  · rcases Path.rootOf_eq path with h | h <;> rw [h] <;> rfl
  · rw [Location.segments_toPath fun name hname => (hcwd.names name hname).2,
      Location.go_workplace hcwd]
end RangeSync
