import RangeSync.Proofs.Commit

/-!
# The folder that a path lies in

A seed is replaced by way of a temporary file, and that file is created in the folder in which the
path of the seed lies, which is found by cutting the text of the path
(`RangeSync.Path.parentOrHere`). Whether there is such a folder is a question about the tree, and
the answer is that there always is: a walk to a file comes by that folder.

* `RangeSync.Walk.Leads.cut` – **a walk can be cut anywhere**, and what is walked until then leads to
  a folder;
* `RangeSync.Tree.walk_parentOrHere` – a path that leads to a file lies in a folder;
* `RangeSync.Writer.canSupplant_of_walk` – so the file can be supplanted.

A path that retraces its end lies in a folder as well, so what it ends at can be supplanted; it is
only that the path leads nowhere then. The shortest of these paths is kept here as a specimen,
`RangeSync.Path.crossing`.
-/

namespace RangeSync

open Text

namespace Walk

variable {t : Tree} {follow : Bool} {links : Nat} {here folder : Location}
  {path front back : List String} {name : String} {s : Spot}

/-- **A walk can be cut anywhere**: what comes before the cut leads to a folder, through all links,
and what comes behind it leads on from there. -/
theorem Leads.cut (h : Leads t follow links here path s) (hpath : path = front ++ back)
    (hback : back ≠ []) :
    ∃ left folder, Leads t true links here front (.taken folder .folder) ∧
      Leads t follow left folder back s := by
  -- the induction is on the steps; either the cut is here, or it is further on
  induction h generalizing front with
  | done => exact absurd (List.append_eq_nil_iff.mp hpath.symm).2 hback
  | stay h ih =>
    rcases List.cons_eq_append_iff.mp hpath with ⟨rfl, rfl⟩ | ⟨front', rfl, hrest⟩
    · exact ⟨_, _, .done, .stay h⟩
    · obtain ⟨left, folder, hfront, hon⟩ := ih hrest
      exact ⟨left, folder, .stay hfront, hon⟩
  | up h ih =>
    rcases List.cons_eq_append_iff.mp hpath with ⟨rfl, rfl⟩ | ⟨front', rfl, hrest⟩
    · exact ⟨_, _, .done, .up h⟩
    · obtain ⟨left, folder, hfront, hon⟩ := ih hrest
      exact ⟨left, folder, .up hfront, hon⟩
  | @vacant links _ _ hn hp =>
    rcases List.cons_eq_append_iff.mp hpath with ⟨rfl, rfl⟩ | ⟨front', rfl, hrest⟩
    · exact ⟨links, _, .done, .vacant hn hp⟩
    · exact absurd (List.append_eq_nil_iff.mp hrest.symm).2 hback
  | enter hn hp h ih =>
    rcases List.cons_eq_append_iff.mp hpath with ⟨rfl, rfl⟩ | ⟨front', rfl, hrest⟩
    · exact ⟨_, _, .done, .enter hn hp h⟩
    · obtain ⟨left, folder, hfront, hon⟩ := ih hrest
      exact ⟨left, folder, .enter hn hp hfront, hon⟩
  | @file links _ _ _ _ _ hn hp =>
    rcases List.cons_eq_append_iff.mp hpath with ⟨rfl, rfl⟩ | ⟨front', rfl, hrest⟩
    · exact ⟨links, _, .done, .file hn hp⟩
    · exact absurd (List.append_eq_nil_iff.mp hrest.symm).2 hback
  | @link links _ _ _ hn hp hf =>
    rcases List.cons_eq_append_iff.mp hpath with ⟨rfl, rfl⟩ | ⟨front', rfl, hrest⟩
    · exact ⟨links, _, .done, .link hn hp hf⟩
    · exact absurd (List.append_eq_nil_iff.mp hrest.symm).2 hback
  | @through _ _ _ target rest _ hn hp he hl h ih =>
    rcases List.cons_eq_append_iff.mp hpath with ⟨rfl, rfl⟩ | ⟨front', rfl, hrest⟩
    · exact ⟨_, _, .done, .through hn hp he hl h⟩
    · -- the target of the link stands before the cut
      have hsteps : steps target ++ rest = (steps target ++ front') ++ back := by
        rw [hrest, List.append_assoc]
      obtain ⟨left, folder, hfront, hon⟩ := ih hsteps
      exact ⟨left, folder, .through hn hp he (Or.inr rfl) hfront, hon⟩

/-- A path to a folder still leads there with a step to the place itself behind it. -/
theorem Leads.stays (h : Leads t true links here path s) (hs : s = .taken folder .folder) :
    Leads t true links here (path ++ ["."]) s := by
  induction h with
  | done => exact .stay .done
  | stay _ ih => exact .stay (ih hs)
  | up _ ih => exact .up (ih hs)
  | vacant | file | link => cases hs
  | enter hn hp _ ih => exact .enter hn hp (ih hs)
  | through hn hp he _ _ ih =>
    have hstays := ih hs
    rw [List.append_assoc] at hstays
    exact .through hn hp he (Or.inr rfl) hstays

/-- What does not lead to a folder ends in a name. -/
theorem Leads.isName (h : Leads t follow links here [name] s) (hs : s.IsOpen) : IsName name := by
  cases h with
  | stay h | up h =>
    cases h
    exact hs.elim
  | vacant hn | file hn | link hn | enter hn | through hn => exact hn

/-- A name is neither that of the folder itself nor that of the one above. -/
theorem IsName.not_idle {name : List Char} (h : IsName (String.ofList name)) :
    (name == ['.'] || name == ['.', '.']) = false := by
  rw [Bool.or_eq_false_iff, beq_eq_false_iff_ne, beq_eq_false_iff_ne]
  constructor
  · rintro rfl
    exact h.ne_dot rfl
  · rintro rfl
    exact h.ne_dots rfl

end Walk

/-- Text without a last slash has no slash. -/
theorem not_mem_of_uncut {s : List Char} (h : cutAtLast? (· == '/') s = none) : '/' ∉ s := by
  intro hmem
  have hfalse := cutAtLast?_eq_none h '/' hmem
  cases hfalse

/-- Text that is cut at its last slash. -/
theorem eq_of_cut {s before name : List Char} {c : Char}
    (h : cutAtLast? (· == '/') s = some (before, c, name)) :
    c = '/' ∧ s = before ++ c :: name ∧ '/' ∉ name := by
  obtain ⟨heq, hc, hname⟩ := cutAtLast?_eq_some h
  refine ⟨by simpa using hc, heq, fun hmem => ?_⟩
  have hfalse := hname '/' hmem
  cases hfalse

namespace Path

variable {path : String} {before name : List Char} {parts : List (List Char)}

/-- The last part stays if it says something. -/
theorem withoutIdleEnd_concat (hname : isIdle name = false) (hparts : parts ≠ []) :
    withoutIdleEnd (parts ++ [name]) = parts ++ [name] := by
  cases parts with
  | nil => exact absurd rfl hparts
  | cons first rest =>
    have hlast : (rest ++ [name]).reverse.dropWhile isIdle = (rest ++ [name]).reverse := by
      rw [List.reverse_concat, List.dropWhile_cons_of_neg (by simp [hname])]
    rw [List.cons_append, withoutIdleEnd, hlast, List.reverse_reverse]

theorem withoutIdleEnd_isPrefix (parts : List (List Char)) : withoutIdleEnd parts <+: parts := by
  cases parts with
  | nil => exact List.prefix_rfl
  | cons first rest =>
    have hkept : (rest.reverse.dropWhile isIdle).reverse <+: rest.reverse.reverse :=
      List.reverse_prefix.mpr (List.dropWhile_suffix isIdle)
    rw [List.reverse_reverse] at hkept
    exact (List.prefix_cons_inj first).mpr hkept

theorem withoutIdleEnd_ne_nil (hparts : parts ≠ []) : withoutIdleEnd parts ≠ [] := by
  cases parts with
  | nil => exact absurd rfl hparts
  | cons => exact List.cons_ne_nil _ _

/-- A path without slashes lies in the working directory. -/
theorem parentOrHere_of_not_mem (h : '/' ∉ path.toList) : parentOrHere path = "." := by
  unfold parentOrHere
  rw [fields_of_not_mem h]
  rfl

/-- **The folder as it is written**: the text before the last slash, as far as it says something. -/
theorem parentOrHere_of_cut (hpath : path.toList = before ++ '/' :: name) (hslash : '/' ∉ name)
    (hname : isIdle name = false) :
    parentOrHere path = "/" ∨ ∃ kept, kept <+: fields '/' before ∧ kept ≠ [] ∧ kept ≠ [[]] ∧
      parentOrHere path = String.ofList (joined '/' kept) := by
  have hne := fields_ne_nil '/' before
  unfold parentOrHere
  rw [hpath, fields_append, fields_of_not_mem hslash, withoutIdleEnd_concat hname hne]
  split
  · rename_i hnil
    simp at hnil
  · rename_i hone
    obtain ⟨hnil, _⟩ := List.append_eq_singleton_iff.mp hone |>.resolve_right (by simp)
    exact absurd hnil hne
  · rw [List.dropLast_concat]
    split
    · exact Or.inl rfl
    · rename_i kept hkept
      exact Or.inr ⟨_, withoutIdleEnd_isPrefix _, withoutIdleEnd_ne_nil hne, hkept, rfl⟩

end Path

namespace Tree

open Walk

variable {t : Tree} {cwd : Location} {follow : Bool} {path : String} {s : Spot}

/-- A slash at the end asks for a folder. -/
theorem endsInSlash_of_walk (h : t.walk cwd follow path = .ok s) (hs : s.IsOpen) :
    Path.endsInSlash path = false := by
  rcases hslash : Path.endsInSlash path with _ | _
  · rfl
  · have hsteps : steps path = segments path ++ ["."] := by
      rw [steps_eq_segments, slashStep, if_pos hslash]
    -- the last step would be one to a place that is open
    obtain ⟨_, _, _, hlast⟩ := (leads_of_walk h).cut hsteps (by simp)
    exact absurd rfl (hlast.isName hs).ne_dot

/-- **The last name of a path**: behind the last slash there is one, and what stands before it leads
to a folder. -/
theorem cut_of_walk {before name : List Char} (h : t.walk cwd follow path = .ok s) (hs : s.IsOpen)
    (hpath : path.toList = before ++ '/' :: name) (hslash : '/' ∉ name) :
    IsName (String.ofList name) ∧ name ≠ [] ∧ ∀ kept, kept <+: fields '/' before →
      ∃ folder, Leads t true linkLimit (start cwd path)
        ((kept.filter (!·.isEmpty)).map String.ofList) (.taken folder .folder) := by
  have hends := endsInSlash_of_walk h hs
  have hne : name ≠ [] := by
    rintro rfl
    rw [Path.endsInSlash, hpath, List.getLast?_concat] at hends
    cases hends
  have hsteps : steps path = ((fields '/' before).filter (!·.isEmpty)).map String.ofList ++
      [String.ofList name] := by
    unfold steps
    rw [hends, if_neg Bool.false_ne_true, hpath, fields_append, fields_of_not_mem hslash]
    simp [hne]
  have hleads := leads_of_walk h
  obtain ⟨_, _, _, hlast⟩ := hleads.cut hsteps (by simp)
  refine ⟨hlast.isName hs, hne, ?_⟩
  rintro kept ⟨dropped, hkept⟩
  -- whatever stands before the last slash can be shortened, because a walk can be cut anywhere
  rw [← hkept, List.filter_append, List.map_append, List.append_assoc] at hsteps
  obtain ⟨_, folder, hfront, _⟩ := hleads.cut hsteps (by simp)
  exact ⟨folder, hfront⟩

/-- The working directory is a folder. -/
theorem walk_here (t : Tree) (cwd : Location) :
    t.walk cwd true "." = .ok (.taken cwd .folder) :=
  walk_of_leads (by decide) (by decide : steps "." = ["."]) (.stay .done)

/-- The root is a folder. -/
theorem walk_root (t : Tree) (cwd : Location) :
    t.walk cwd true "/" = .ok (.taken [] .folder) :=
  walk_of_leads (by decide) (by decide : steps "/" = ["."]) (.stay .done)

/-- A path that begins like one that leads somewhere can be walked. -/
theorem walk_of_isPrefix {front : String} {back : List Char} {folder : Location}
    (h : t.walk cwd follow path = .ok s) (hpath : path.toList = front.toList ++ back)
    (hfront : front.toList ≠ [])
    (hleads : Leads t true linkLimit (start cwd path) (segments front) (.taken folder .folder)) :
    t.walk cwd true front = .ok (.taken folder .folder) := by
  have hstart : start cwd front = start cwd path := by
    unfold start Path.isAbsolute
    rw [hpath]
    cases hchars : front.toList with
    | nil => exact absurd hchars hfront
    | cons => rfl
  have htext : path = front ++ String.ofList back := by
    rw [← String.ofList_toList (s := path), hpath, String.ofList_append, String.ofList_toList]
  have hsize : front.utf8ByteSize ≤ path.utf8ByteSize := by
    rw [htext, String.utf8ByteSize_append]
    exact Nat.le_add_right _ _
  obtain ⟨hzero, _, hlong⟩ := isPath_of_walk h
  rw [hpath, List.contains_append, Bool.or_eq_false_iff] at hzero
  have hempty : front.isEmpty = false := by
    rcases he : front.isEmpty with _ | _
    · rfl
    · exact absurd (String.toList_eq_nil_iff.mpr (String.isEmpty_iff.mp he)) hfront
  have hp : IsPath front := ⟨hzero.1, hempty, Nat.le_trans hsize hlong⟩
  rw [← hstart] at hleads
  -- a slash at the end of the beginning adds a step that stays where it is
  have hsteps := steps_eq_segments front
  unfold slashStep at hsteps
  split at hsteps
  · exact walk_of_leads hp hsteps (hleads.stays rfl)
  · rw [List.append_nil] at hsteps
    exact walk_of_leads hp hsteps hleads

/-- What does not lead to a folder ends in a name. -/
theorem endsInName_of_walk (h : t.walk cwd follow path = .ok s) (hs : s.IsOpen) :
    Disk.endsInName path = true := by
  unfold Disk.endsInName
  rcases hcut : cutAtLast? (· == '/') path.toList with _ | ⟨before, c, name⟩
  · have hno := not_mem_of_uncut hcut
    have hsteps : steps path = [String.ofList path.toList] := by
      have hne : path.toList ≠ [] := by
        intro hnil
        have hempty := (isPath_of_walk h).not_empty
        rw [String.toList_eq_nil_iff.mp hnil] at hempty
        cases hempty
      unfold steps
      rw [endsInSlash_of_walk h hs, if_neg Bool.false_ne_true, fields_of_not_mem hno]
      simp [hne]
    have hleads := leads_of_walk h
    rw [hsteps] at hleads
    have hname := (hleads.isName hs).not_idle
    dsimp only
    rw [hname]
    rfl
  · obtain ⟨rfl, hpath, hno⟩ := eq_of_cut hcut
    have hname := (cut_of_walk h hs hpath hno).1.not_idle
    dsimp only
    rw [hname]
    rfl

/-- **The folder of a path is there**, if the path leads to a file or to a place for one. -/
theorem walk_parentOrHere (h : t.walk cwd follow path = .ok s) (hs : s.IsOpen) :
    ∃ folder, t.walk cwd true (Path.parentOrHere path) = .ok (.taken folder .folder) := by
  rcases hcut : cutAtLast? (· == '/') path.toList with _ | ⟨before, c, name⟩
  · rw [Path.parentOrHere_of_not_mem (not_mem_of_uncut hcut)]
    exact ⟨cwd, walk_here t cwd⟩
  · obtain ⟨rfl, hpath, hno⟩ := eq_of_cut hcut
    obtain ⟨hn, hne, hkeeps⟩ := cut_of_walk h hs hpath hno
    have hidle : Path.isIdle name = false := by
      have hdots := hn.not_idle
      rw [Bool.or_eq_false_iff] at hdots
      rw [Path.isIdle, hdots.1, Bool.or_false]
      simpa using hne
    rcases Path.parentOrHere_of_cut hpath hno hidle with hroot | ⟨kept, hprefix, hsome, htext, heq⟩
    · rw [hroot]
      exact ⟨[], walk_root t cwd⟩
    · obtain ⟨folder, hleads⟩ := hkeeps kept hprefix
      refine ⟨folder, ?_⟩
      obtain ⟨dropped, hkept⟩ := hprefix
      have hfields : fields '/' (joined '/' kept) = kept := fields_joined hsome fun part hpart =>
        not_mem_of_mem_fields (hkept ▸ List.mem_append_left dropped hpart)
      -- the folder is written as a beginning of the path
      have hbefore : ∃ back, before = joined '/' kept ++ back := by
        rw [← joined_fields '/' before, ← hkept]
        by_cases hd : dropped = []
        · exact ⟨[], by rw [hd, List.append_nil, List.append_nil]⟩
        · exact ⟨_, joined_append hsome hd⟩
      obtain ⟨back, rfl⟩ := hbefore
      rw [heq]
      refine @walk_of_isPrefix t cwd follow path s _ (back ++ '/' :: name) folder h ?_ ?_ ?_
      · rw [String.toList_ofList, hpath, List.append_assoc]
      · rw [String.toList_ofList]
        exact joined_ne_nil hsome htext
      · rwa [segments, String.toList_ofList, hfields]

end Tree

namespace Writer

variable {d : Disk} {follow : Bool} {path : String} {s : Spot}

/-- **What a path leads to, or ends at, can be supplanted**, unless it is a folder. -/
theorem canSupplant_of_walk (h : d.tree.walk d.cwd follow path = .ok s) (hs : s.IsOpen) :
    CanSupplant d path := by
  refine ⟨Tree.walk_parentOrHere h hs, Tree.endsInSlash_of_walk h hs,
    Tree.endsInName_of_walk h hs, ?_⟩
  cases follow with
  | false => exact ⟨s, h, hs⟩
  | true =>
    rcases Tree.walk_follow h with hplain | ⟨place, target, hlink⟩
    · exact ⟨s, hplain, hs⟩
    · exact ⟨_, hlink, trivial⟩

end Writer

/-! ### A path that retraces its end -/

/-- A path through a link that comes back to the link, if the link leads to a folder beside it. -/
def Path.crossing : String := "/l/../l"

namespace Tree

variable {t : Tree} {cwd : Location}

/-- The link and the folder that a crossing path passes. -/
def IsCrossed (t : Tree) : Prop :=
  t.get? ["l"] = some (.link "d") ∧ t.get? ["d"] = some .folder

theorem IsCrossed.walk (h : t.IsCrossed) :
    t.walk cwd false Path.crossing = .ok (.taken ["l"] (.link "d")) := by
  have htarget : Walk.steps "d" ++ ["..", "l"] = ["d", "..", "l"] := by decide
  refine walk_of_leads (by decide) (by decide : _ = ["l", "..", "l"]) ?_
  refine .through (by decide) h.1 (by decide) (Or.inl nofun) ?_
  rw [htarget]
  exact .enter (by decide) h.2 (.up (.link (by decide) h.1 rfl))

/-- Without the link at its end, the path breaks off at the first step. -/
theorem IsCrossed.retraces (h : t.IsCrossed) : t.Retraces cwd Path.crossing := by
  refine ⟨_, h.walk, trivial, ?_⟩
  rw [walk_eq_go h.walk, (by decide : Walk.steps Path.crossing = ["l", "..", "l"])]
  exact Walk.go_missing (by decide) (get?_erase_self (by decide))

end Tree

/-- A crossing path ends at the link, so the link can be supplanted. -/
theorem Writer.canSupplant_crossing {d : Disk} (h : d.tree.IsCrossed) :
    CanSupplant d Path.crossing :=
  canSupplant_of_walk h.walk trivial

end RangeSync
