import RangeSync.Proofs.Tree

/-!
# Where paths lead

`RangeSync.Walk.go` finds the place of a path by a recursion with thirteen ends, most of them
failures. `RangeSync.Walk.Leads` says the same of the walks that succeed, as a relation with one
rule for each kind of step, so that what is proved about paths is an induction over the steps of a
walk.

Two questions are asked about a walk again and again: what becomes of it if the tree changes in one
place, and how the walk that follows the last link relates to the one that does not.
`RangeSync.Walk.go_comes_by` answers the first one for every change at once: a walk depends on a
place only from the first time on that it comes there.

* **A path leads to the same entry in a tree that has more entries** (`RangeSync.Tree.walk_keeps`).
* **Beyond a file there is nothing**: a path that leads to a file leads nowhere with more names
  behind it (`RangeSync.Walk.Leads.not_append`).
* **Paths that lead to different places do not meet at their ends**, even if one of them ends at a
  link that is replaced or removed (`RangeSync.Tree.walk_apart`).
* **A path whose end is replaced by a file leads to that file** – unless the path has passed, on its
  way, the very link that it ends at (`RangeSync.Tree.walk_replaced`). A link that leads to a folder
  can be passed and be the end as well, as in `l/../l`; then replacing it breaks the path.
  `RangeSync.Tree.Retraces` is that case, and a path that leads to a file is never in it
  (`RangeSync.Tree.not_retraces_of_file`).
-/

namespace RangeSync

/-- The place that a path leads to, taken or not. -/
def Spot.place : Spot → Location
  | .taken place _ => place
  | .vacant folder name => folder ++ [name]

/-- The spot is not a folder, so a file can be put there. -/
def Spot.IsOpen : Spot → Prop
  | .taken _ .folder => False
  | _ => True

/-- The entry that a path leads to, if there is one. -/
def Spot.node? : Spot → Option Node
  | .taken _ node => some node
  | .vacant _ _ => none

namespace Walk

/-- The step is a name that an entry can have. -/
structure IsName (name : String) : Prop where
  ne_dot : name ≠ "."
  ne_dots : name ≠ ".."
  fits : name.utf8ByteSize ≤ nameLimit

instance (name : String) : Decidable (IsName name) :=
  decidable_of_iff (name ≠ "." ∧ name ≠ ".." ∧ name.utf8ByteSize ≤ nameLimit)
    ⟨fun ⟨hdot, hdots, hfits⟩ => ⟨hdot, hdots, hfits⟩,
      fun ⟨hdot, hdots, hfits⟩ => ⟨hdot, hdots, hfits⟩⟩

/-- The text is not refused as a path, whatever the tree is. -/
structure IsPath (path : String) : Prop where
  no_zero : path.toList.contains '\x00' = false
  not_empty : path.isEmpty = false
  fits : path.utf8ByteSize ≤ pathLimit

instance (path : String) : Decidable (IsPath path) :=
  decidable_of_iff (path.toList.contains '\x00' = false ∧ path.isEmpty = false ∧
      path.utf8ByteSize ≤ pathLimit)
    ⟨fun ⟨hzero, hempty, hfits⟩ => ⟨hzero, hempty, hfits⟩,
      fun ⟨hzero, hempty, hfits⟩ => ⟨hzero, hempty, hfits⟩⟩

/-- **Where a walk leads**: one rule for each kind of step. `links` is how many links may still be
followed. -/
inductive Leads (t : Tree) (follow : Bool) : Nat → Location → List String → Spot → Prop
  /-- At the end of the path. -/
  | done {links : Nat} {here : Location} : Leads t follow links here [] (.taken here .folder)
  /-- Stay. -/
  | stay {links : Nat} {here : Location} {rest : List String} {s : Spot} :
      Leads t follow links here rest s → Leads t follow links here ("." :: rest) s
  /-- Go to the place above. -/
  | up {links : Nat} {here : Location} {rest : List String} {s : Spot} :
      Leads t follow links here.dropLast rest s → Leads t follow links here (".." :: rest) s
  /-- The last name is missing. -/
  | vacant {links : Nat} {here : Location} {name : String} :
      IsName name → t.get? (here ++ [name]) = none →
      Leads t follow links here [name] (.vacant here name)
  /-- Go into a folder. -/
  | enter {links : Nat} {here : Location} {name : String} {rest : List String} {s : Spot} :
      IsName name → t.get? (here ++ [name]) = some .folder →
      Leads t follow links (here ++ [name]) rest s → Leads t follow links here (name :: rest) s
  /-- The last name is that of a file. -/
  | file {links : Nat} {here : Location} {name : String} {content : List UInt8} {mode : Nat}
      {time : Option Time.Instant} :
      IsName name → t.get? (here ++ [name]) = some (.file content mode time) →
      Leads t follow links here [name] (.taken (here ++ [name]) (.file content mode time))
  /-- The last name is that of a link, and it is the link that is meant. -/
  | link {links : Nat} {here : Location} {name target : String} :
      IsName name → t.get? (here ++ [name]) = some (.link target) → follow = false →
      Leads t follow links here [name] (.taken (here ++ [name]) (.link target))
  /-- Follow a link. -/
  | through {links : Nat} {here : Location} {name target : String} {rest : List String}
      {s : Spot} :
      IsName name → t.get? (here ++ [name]) = some (.link target) → target.isEmpty = false →
      (rest ≠ [] ∨ follow = true) →
      Leads t follow links (start here target) (steps target ++ rest) s →
      Leads t follow (links + 1) here (name :: rest) s

variable {t t' : Tree} {follow : Bool} {links links' : Nat} {here : Location}
  {path rest : List String} {name target : String} {s s' : Spot}

/-! ### The steps of a path -/

/-- The segments of a path that are not empty. -/
def segments (path : String) : List String :=
  ((Text.fields '/' path.toList).filter (!·.isEmpty)).map String.ofList

/-- The step of a slash at the end. -/
def slashStep (path : String) : List String :=
  if Path.endsInSlash path then ["."] else []

theorem steps_eq_segments (path : String) : steps path = segments path ++ slashStep path := by
  unfold steps segments slashStep
  dsimp only
  split
  · rfl
  · exact (List.append_nil _).symm

/-! ### One step of a walk -/

/-- A step to a name looks at its entry. -/
theorem go_name (hn : IsName name) :
    go t follow links here (name :: rest) =
      match t.get? (here ++ [name]) with
      | none => if rest = [] then .ok (.vacant here name) else .error .notFound
      | some .folder => go t follow links (here ++ [name]) rest
      | some (.file content mode modified) =>
        if rest = [] then .ok (.taken (here ++ [name]) (.file content mode modified))
        else .error .notADirectory
      | some (.link target) =>
        if rest = [] ∧ !follow then .ok (.taken (here ++ [name]) (.link target))
        else
          match links with
          | 0 => .error .filesystemLoop
          | links + 1 =>
            if target.isEmpty then .error .notFound
            else go t follow links (start here target) (steps target ++ rest) := by
  have hgo := go.eq_def t follow links here (name :: rest)
  have hfits : ¬ nameLimit < name.utf8ByteSize := Nat.not_lt.mpr hn.3
  exact hgo.trans ((if_neg hn.1).trans ((if_neg hn.2).trans (if_neg hfits)))

@[simp] theorem go_nil : go t follow links here [] = .ok (.taken here .folder) := by
  rw [go]

@[simp] theorem go_stay : go t follow links here ("." :: rest) = go t follow links here rest := by
  rw [go, if_pos rfl]

@[simp] theorem go_up :
    go t follow links here (".." :: rest) = go t follow links here.dropLast rest := by
  rw [go, if_neg (by decide), if_pos rfl]

theorem go_missing (hn : IsName name) (hp : t.get? (here ++ [name]) = none) :
    go t follow links here (name :: rest) =
      if rest = [] then .ok (.vacant here name) else .error .notFound := by
  rw [go_name hn, hp]

theorem go_folder (hn : IsName name) (hp : t.get? (here ++ [name]) = some .folder) :
    go t follow links here (name :: rest) = go t follow links (here ++ [name]) rest := by
  rw [go_name hn, hp]

theorem go_file {content : List UInt8} {mode : Nat} {time : Option Time.Instant}
    (hn : IsName name) (hp : t.get? (here ++ [name]) = some (.file content mode time)) :
    go t follow links here (name :: rest) =
      if rest = [] then .ok (.taken (here ++ [name]) (.file content mode time))
      else .error .notADirectory := by
  rw [go_name hn, hp]

/-- The link is what is meant. -/
theorem go_link (hn : IsName name) (hp : t.get? (here ++ [name]) = some (.link target)) :
    go t false links here [name] = .ok (.taken (here ++ [name]) (.link target)) := by
  rw [go_name hn, hp]
  rfl

theorem go_through (hn : IsName name) (hp : t.get? (here ++ [name]) = some (.link target))
    (he : target.isEmpty = false) (hl : rest ≠ [] ∨ follow = true) :
    go t follow (links + 1) here (name :: rest) =
      go t follow links (start here target) (steps target ++ rest) := by
  have hlast : ¬(rest = [] ∧ (!follow) = true) := by
    rintro ⟨hr, hf⟩
    rcases hl with hl | hl
    · exact hl hr
    · rw [hl] at hf
      cases hf
  rw [go_name hn, hp]
  simp only [if_neg hlast, he]
  rfl

theorem leads_of_go (h : go t follow links here path = .ok s) :
    Leads t follow links here path s := by
  fun_induction go t follow links here path with
  | case1 => cases h; exact .done
  | case2 _ _ _ ih => exact .stay (ih h)
  | case3 _ _ _ _ ih => exact .up (ih h)
  | case4 => cases h
  | case5 _ _ _ h1 h2 h3 hn => cases h; exact .vacant ⟨h1, h2, Nat.not_lt.mp h3⟩ hn
  | case6 => cases h
  | case7 _ _ _ _ h1 h2 h3 hn ih => exact .enter ⟨h1, h2, Nat.not_lt.mp h3⟩ hn (ih h)
  | case8 _ _ _ h1 h2 h3 _ _ _ hn => cases h; exact .file ⟨h1, h2, Nat.not_lt.mp h3⟩ hn
  | case9 => cases h
  | case10 _ _ _ _ h1 h2 h3 _ hn hl =>
    cases h
    obtain ⟨rfl, hf⟩ := hl
    exact .link ⟨h1, h2, Nat.not_lt.mp h3⟩ hn (by simpa using hf)
  | case11 => cases h
  | case12 => cases h
  | case13 _ _ _ h1 h2 h3 _ hn hl _ he ih =>
    refine .through ⟨h1, h2, Nat.not_lt.mp h3⟩ hn (by simpa using he) ?_ (ih h)
    rcases Classical.em (follow = true) with hf | hf
    · exact Or.inr hf
    · exact Or.inl fun hr => hl ⟨hr, by simpa using hf⟩

theorem go_of_leads (h : Leads t follow links here path s) :
    go t follow links here path = .ok s := by
  induction h with
  | done => exact go_nil
  | stay _ ih => rw [go_stay, ih]
  | up _ ih => rw [go_up, ih]
  | vacant hn hp => rw [go_missing hn hp, if_pos rfl]
  | enter hn hp _ ih => rw [go_folder hn hp, ih]
  | file hn hp => rw [go_file hn hp, if_pos rfl]
  | link hn hp hf => rw [hf, go_link hn hp]
  | through hn hp he hl _ ih => rw [go_through hn hp he hl, ih]

/-- Walks in trees that agree everywhere are the same. -/
theorem go_congr (h : Tree.Same t t') :
    go t' follow links here path = go t follow links here path := by
  fun_induction go t follow links here path with
  | case1 => exact go_nil
  | case2 _ _ _ ih => rw [go_stay, ih]
  | case3 _ _ _ _ ih => rw [go_up, ih]
  | case4 _ _ _ _ h1 h2 h3 => rw [go, if_neg h1, if_neg h2, if_pos h3]
  | case5 _ _ _ h1 h2 h3 hn =>
    rw [go_missing ⟨h1, h2, Nat.not_lt.mp h3⟩ ((h _).trans hn), if_pos rfl]
  | case6 _ _ _ _ h1 h2 h3 hn hr =>
    rw [go_missing ⟨h1, h2, Nat.not_lt.mp h3⟩ ((h _).trans hn), if_neg hr]
  | case7 _ _ _ _ h1 h2 h3 hn ih =>
    rw [go_folder ⟨h1, h2, Nat.not_lt.mp h3⟩ ((h _).trans hn), ih]
  | case8 _ _ _ h1 h2 h3 _ _ _ hn =>
    rw [go_file ⟨h1, h2, Nat.not_lt.mp h3⟩ ((h _).trans hn), if_pos rfl]
  | case9 _ _ _ _ h1 h2 h3 _ _ _ hn hr =>
    rw [go_file ⟨h1, h2, Nat.not_lt.mp h3⟩ ((h _).trans hn), if_neg hr]
  | case10 _ _ _ _ h1 h2 h3 _ hn hl =>
    rw [go_name ⟨h1, h2, Nat.not_lt.mp h3⟩, h, hn]
    simp only [if_pos hl]
  | case11 _ _ _ h1 h2 h3 _ hn hl =>
    rw [go_name ⟨h1, h2, Nat.not_lt.mp h3⟩, h, hn]
    simp only [if_neg hl]
  | case12 _ _ _ h1 h2 h3 _ hn hl _ he =>
    rw [go_name ⟨h1, h2, Nat.not_lt.mp h3⟩, h, hn]
    simp only [if_neg hl, if_pos he]
  | case13 _ _ _ h1 h2 h3 _ hn hl _ he ih =>
    rw [go_name ⟨h1, h2, Nat.not_lt.mp h3⟩, h, hn]
    simp only [if_neg hl, if_neg he]
    exact ih

/-! ### Following the last link or not -/

/-- A walk that does not end at a link is the same whether the last link is followed or not. -/
theorem go_follow (t : Tree) (links : Nat) (here : Location) (path : List String) :
    go t true links here path = go t false links here path ∨
      ∃ place target, go t false links here path = .ok (.taken place (.link target)) := by
  fun_induction go t true links here path with
  | case1 => exact Or.inl go_nil.symm
  | case2 _ _ _ ih => rwa [go_stay]
  | case3 _ _ _ _ ih => rwa [go_up]
  | case4 _ _ _ _ h1 h2 h3 => exact Or.inl (by rw [go, if_neg h1, if_neg h2, if_pos h3])
  | case5 _ _ _ h1 h2 h3 hn =>
    exact Or.inl (by rw [go_missing ⟨h1, h2, Nat.not_lt.mp h3⟩ hn, if_pos rfl])
  | case6 _ _ _ _ h1 h2 h3 hn hr =>
    exact Or.inl (by rw [go_missing ⟨h1, h2, Nat.not_lt.mp h3⟩ hn, if_neg hr])
  | case7 _ _ _ _ h1 h2 h3 hn ih => rwa [go_folder ⟨h1, h2, Nat.not_lt.mp h3⟩ hn]
  | case8 _ _ _ h1 h2 h3 _ _ _ hn =>
    exact Or.inl (by rw [go_file ⟨h1, h2, Nat.not_lt.mp h3⟩ hn, if_pos rfl])
  | case9 _ _ _ _ h1 h2 h3 _ _ _ hn hr =>
    exact Or.inl (by rw [go_file ⟨h1, h2, Nat.not_lt.mp h3⟩ hn, if_neg hr])
  | case10 _ _ _ _ _ _ _ _ _ hl => exact absurd hl.2 (by decide)
  | case11 here name rest h1 h2 h3 target hn _ =>
    by_cases hr : rest = []
    · exact Or.inr ⟨_, target, hr ▸ go_link ⟨h1, h2, Nat.not_lt.mp h3⟩ hn⟩
    · rw [go_name ⟨h1, h2, Nat.not_lt.mp h3⟩, hn]
      exact Or.inl (by simp [hr])
  | case12 here name rest h1 h2 h3 target hn _ links he =>
    by_cases hr : rest = []
    · exact Or.inr ⟨_, target, hr ▸ go_link ⟨h1, h2, Nat.not_lt.mp h3⟩ hn⟩
    · rw [go_name ⟨h1, h2, Nat.not_lt.mp h3⟩, hn]
      exact Or.inl (by simp [hr, he])
  | case13 here name rest h1 h2 h3 target hn _ links he ih =>
    by_cases hr : rest = []
    · exact Or.inr ⟨_, target, hr ▸ go_link ⟨h1, h2, Nat.not_lt.mp h3⟩ hn⟩
    · rwa [go_through ⟨h1, h2, Nat.not_lt.mp h3⟩ hn (by simpa using he) (Or.inl hr)]

/-- What is left of a walk that follows the last link, from that link on. -/
theorem Leads.behind_link {place : Location} (h : Leads t false links here path s)
    (hs : s = .taken place (.link target)) (h' : go t true links here path = .ok s') :
    ∃ left, go t true left (start place.dropLast target) (steps target) = .ok s' := by
  induction h with
  | done => cases hs
  | stay _ ih => exact ih hs (go_stay.symm.trans h')
  | up _ ih => exact ih hs (go_up.symm.trans h')
  | vacant => cases hs
  | enter hn hp _ ih => exact ih hs ((go_folder hn hp).symm.trans h')
  | file => cases hs
  | @link links here name _ hn hp =>
    cases hs
    rw [List.dropLast_concat]
    -- the link is followed after all, so one more of them may be
    cases links with
    | zero =>
      rw [go_name hn, hp] at h'
      exact nomatch h'
    | succ left =>
      rcases he : target.isEmpty with _ | _
      · rw [go_through hn hp he (Or.inr rfl), List.append_nil] at h'
        exact ⟨left, h'⟩
      · rw [go_name hn, hp] at h'
        simp [he] at h'
  | through hn hp he hl _ ih => exact ih hs ((go_through hn hp he (Or.inr rfl)).symm.trans h')

/-! ### Walks with more links -/

/-- A walk leads to the same spot if more links may be followed. -/
theorem Leads.more (h : Leads t follow links here path s) (hle : links ≤ links') :
    Leads t follow links' here path s := by
  induction h generalizing links' with
  | done => exact .done
  | stay _ ih => exact .stay (ih hle)
  | up _ ih => exact .up (ih hle)
  | vacant hn hp => exact .vacant hn hp
  | enter hn hp _ ih => exact .enter hn hp (ih hle)
  | file hn hp => exact .file hn hp
  | link hn hp hf => exact .link hn hp hf
  | through hn hp he hl _ ih =>
    obtain ⟨n, rfl⟩ : ∃ n, links' = n + 1 := ⟨links' - 1, by omega⟩
    exact .through hn hp he hl (ih (by omega))

/-- However many links may be followed, a walk that succeeds leads to the same spot. -/
theorem go_unique (h : go t follow links here path = .ok s)
    (h' : go t follow links' here path = .ok s') : s = s' := by
  have hm := (leads_of_go h).more (Nat.le_max_left links links')
  have hm' := (leads_of_go h').more (Nat.le_max_right links links')
  exact Except.ok.inj ((go_of_leads hm).symm.trans (go_of_leads hm'))

/-- **Beyond a file there is nothing**: with more names behind it, a path that does not lead to a
folder leads nowhere. -/
theorem Leads.not_append (h : Leads t true links here path s) (hs : s.IsOpen) (hr : rest ≠ []) :
    go t follow links' here (path ++ rest) ≠ .ok s' := by
  induction h generalizing links' with
  | done => exact hs.elim
  | stay _ ih => exact fun h' => ih hs (go_stay.symm.trans h')
  | up _ ih => exact fun h' => ih hs (go_up.symm.trans h')
  | vacant hn hp =>
    rw [List.cons_append, List.nil_append, go_missing hn hp, if_neg hr]
    exact nofun
  | enter hn hp _ ih => exact fun h' => ih hs ((go_folder hn hp).symm.trans h')
  | file hn hp =>
    rw [List.cons_append, List.nil_append, go_file hn hp, if_neg hr]
    exact nofun
  | link _ _ hf => cases hf
  | @through _ here name target rest' _ hn hp he _ _ ih =>
    have hr' : rest' ++ rest ≠ [] := fun hc => hr (List.append_eq_nil_iff.mp hc).2
    cases links' with
    | zero =>
      rw [List.cons_append, go_name hn, hp]
      simp [hr]
    | succ left =>
      rw [List.cons_append, go_through hn hp he (Or.inl hr'), ← List.append_assoc]
      exact ih hs

/-! ### Walks in other trees -/

/-- **A walk only looks at the entries on its way**, so it leads to the same entry in every tree
that has them. -/
theorem Leads.keeps (h : Leads t follow links here path s) (hs : s.node? ≠ none)
    (hk : Tree.Keeps t t') : Leads t' follow links here path s := by
  induction h with
  | done => exact .done
  | stay _ ih => exact .stay (ih hs)
  | up _ ih => exact .up (ih hs)
  | vacant => exact absurd rfl hs
  | enter hn hp _ ih => exact .enter hn (hk _ _ hp) (ih hs)
  | file hn hp => exact .file hn (hk _ _ hp)
  | link hn hp hf => exact .link hn (hk _ _ hp) hf
  | through hn hp he hl _ ih => exact .through hn (hk _ _ hp) he hl (ih hs)

/-- What a walk ends at is what stands there. -/
theorem Leads.get? (h : Leads t follow links here path s) (hs : s.IsOpen) :
    t.get? s.place = s.node? := by
  induction h with
  | done => exact hs.elim
  | stay _ ih | up _ ih | enter _ _ _ ih | through _ _ _ _ _ ih => exact ih hs
  | vacant _ hp | file _ hp | link _ hp => exact hp

theorem Leads.place_ne_nil (h : Leads t follow links here path s) (hs : s.IsOpen) :
    s.place ≠ [] := by
  intro hc
  have hget := h.get? hs
  rw [hc] at hget
  cases s with
  | taken place node =>
    cases hget
    exact hs
  | vacant => cases hget

theorem Leads.not_link {place : Location} (h : Leads t true links here path s) :
    s ≠ .taken place (.link target) := by
  induction h with
  | done | vacant | file => exact nofun
  | link _ _ hf => cases hf
  | stay _ ih | up _ ih | enter _ _ _ ih | through _ _ _ _ _ ih => exact ih

/-- **The first time that a walk comes by a place.** Either it never does, and goes the same way
whatever is there, or it comes there after some steps that do not depend on what is there. -/
theorem go_comes_by (t : Tree) (follow : Bool) (links : Nat) (here : Location) (path : List String)
    (folder : Location) (name : String) :
    (∀ t', Tree.SameOff (folder ++ [name]) t t' →
      go t' follow links here path = go t follow links here path) ∨
      ∃ left rest, IsName name ∧ ∀ t', Tree.SameOff (folder ++ [name]) t t' →
        go t' follow links here path = go t' follow left folder (name :: rest) := by
  -- at every name, either it is the place, and the walk has come there, or its entry is the same
  have hhere {links : Nat} {here : Location} {last : String} {rest : List String} (hn : IsName last)
      (hq : here ++ [last] = folder ++ [name]) :
      ∃ left rest', IsName name ∧ ∀ t', Tree.SameOff (folder ++ [name]) t t' →
        go t' follow links here (last :: rest) = go t' follow left folder (name :: rest') := by
    obtain ⟨rfl, rfl⟩ := List.append_singleton_inj.mp hq
    exact ⟨links, rest, hn, fun _ _ => rfl⟩
  have hend {links : Nat} {here : Location} {last : String} {rest : List String}
      {result : Except IoKind Spot} (hn : IsName last)
      (hgo : ∀ t', t'.get? (here ++ [last]) = t.get? (here ++ [last]) →
        go t' follow links here (last :: rest) = result) :
      (∀ t', Tree.SameOff (folder ++ [name]) t t' →
        go t' follow links here (last :: rest) = result) ∨
        ∃ left rest', IsName name ∧ ∀ t', Tree.SameOff (folder ++ [name]) t t' →
          go t' follow links here (last :: rest) = go t' follow left folder (name :: rest') := by
    by_cases hq : here ++ [last] = folder ++ [name]
    · exact Or.inr (hhere hn hq)
    · exact Or.inl fun t' ht => hgo t' (ht _ hq)
  fun_induction go t follow links here path with
  | case1 => exact Or.inl fun _ _ => go_nil
  | case2 _ _ _ ih => simpa only [go_stay] using ih
  | case3 _ _ _ _ ih => simpa only [go_up] using ih
  | case4 _ _ _ _ h1 h2 h3 => exact Or.inl fun _ _ => by rw [go, if_neg h1, if_neg h2, if_pos h3]
  | case5 _ _ _ h1 h2 h3 hp =>
    have hn : IsName _ := ⟨h1, h2, Nat.not_lt.mp h3⟩
    exact hend hn fun t' he => by rw [go_missing hn (he.trans hp), if_pos rfl]
  | case6 _ _ _ _ h1 h2 h3 hp hr =>
    have hn : IsName _ := ⟨h1, h2, Nat.not_lt.mp h3⟩
    exact hend hn fun t' he => by rw [go_missing hn (he.trans hp), if_neg hr]
  | case7 links here last rest h1 h2 h3 hp ih =>
    have hn : IsName last := ⟨h1, h2, Nat.not_lt.mp h3⟩
    by_cases hq : here ++ [last] = folder ++ [name]
    · exact Or.inr (hhere hn hq)
    · rcases ih with ih | ⟨left, more, hm, ih⟩
      · exact Or.inl fun t' ht => (go_folder hn ((ht _ hq).trans hp)).trans (ih t' ht)
      · exact Or.inr ⟨left, more, hm, fun t' ht =>
          (go_folder hn ((ht _ hq).trans hp)).trans (ih t' ht)⟩
  | case8 _ _ _ h1 h2 h3 _ _ _ hp =>
    have hn : IsName _ := ⟨h1, h2, Nat.not_lt.mp h3⟩
    exact hend hn fun t' he => by rw [go_file hn (he.trans hp), if_pos rfl]
  | case9 _ _ _ _ h1 h2 h3 _ _ _ hp hr =>
    have hn : IsName _ := ⟨h1, h2, Nat.not_lt.mp h3⟩
    exact hend hn fun t' he => by rw [go_file hn (he.trans hp), if_neg hr]
  | case10 _ _ _ _ h1 h2 h3 _ hp hl =>
    have hn : IsName _ := ⟨h1, h2, Nat.not_lt.mp h3⟩
    exact hend hn fun t' he => by rw [go_name hn, he.trans hp]; simp only [if_pos hl]
  | case11 _ _ _ h1 h2 h3 _ hp hl =>
    have hn : IsName _ := ⟨h1, h2, Nat.not_lt.mp h3⟩
    exact hend hn fun t' he => by rw [go_name hn, he.trans hp]; simp only [if_neg hl]
  | case12 _ _ _ h1 h2 h3 _ hp hl _ he' =>
    have hn : IsName _ := ⟨h1, h2, Nat.not_lt.mp h3⟩
    exact hend hn fun t' he => by rw [go_name hn, he.trans hp]; simp only [if_neg hl, if_pos he']
  | case13 here last rest h1 h2 h3 target hp hl links he ih =>
    have hn : IsName last := ⟨h1, h2, Nat.not_lt.mp h3⟩
    have hgo (t' : Tree) (hp' : t'.get? (here ++ [last]) = some (.link target)) :
        go t' follow (links + 1) here (last :: rest) =
          go t' follow links (start here target) (steps target ++ rest) := by
      rw [go_name hn, hp']
      simp only [if_neg hl, if_neg he]
    by_cases hq : here ++ [last] = folder ++ [name]
    · exact Or.inr (hhere hn hq)
    · rcases ih with ih | ⟨left, more, hm, ih⟩
      · exact Or.inl fun t' ht => (hgo t' ((ht _ hq).trans hp)).trans (ih t' ht)
      · exact Or.inr ⟨left, more, hm, fun t' ht =>
          (hgo t' ((ht _ hq).trans hp)).trans (ih t' ht)⟩

/-- A walk that succeeds comes by a place or leads to the same spot whatever is there. -/
theorem Leads.comes_by (h : Leads t follow links here path s) (folder : Location) (name : String) :
    (∀ t', Tree.SameOff (folder ++ [name]) t t' → go t' follow links here path = .ok s) ∨
      ∃ left rest, IsName name ∧ ∀ t', Tree.SameOff (folder ++ [name]) t t' →
        go t' follow links here path = go t' follow left folder (name :: rest) := by
  refine (go_comes_by t follow links here path folder name).imp_left fun hall t' ht => ?_
  exact (hall t' ht).trans (go_of_leads h)

/-- **The last step of a walk**: until then, what stands at its end does not matter. Only a link can
be passed and be the end as well. -/
theorem Leads.ends_by (h : Leads t follow links here path s) (hs : s.IsOpen) :
    ∃ left folder name rest, s.place = folder ++ [name] ∧ IsName name ∧
      (∀ t', Tree.SameOff s.place t t' →
        go t' follow links here path = go t' follow left folder (name :: rest)) ∧
      (rest = [] ∨ follow = false ∧ ∃ target, s.node? = some (.link target)) := by
  obtain ⟨folder, name, hq⟩ := Tree.exists_concat (h.place_ne_nil hs)
  have hget := h.get? hs
  rcases h.comes_by folder name with hall | ⟨left, rest, hn, hall⟩
  · -- whatever is put at the end, the walk would lead to what is there now
    obtain ⟨e, he⟩ : ∃ e : Node, some e ≠ s.node? := by
      cases s with
      | taken _ node =>
        cases node with
        | file | folder => exact ⟨.link "", nofun⟩
        | link => exact ⟨.folder, nofun⟩
      | vacant => exact ⟨.folder, nofun⟩
    have hput := (leads_of_go (hall _ (Tree.sameOff_put t _ e))).get? hs
    rw [hq, Tree.get?_put_self t e (by simp)] at hput
    exact absurd hput he
  · refine ⟨left, folder, name, rest, hq, hn, hq ▸ hall, ?_⟩
    have hlast : go t follow left folder (name :: rest) = .ok s :=
      (hall t (Tree.SameOff.refl _ t)).symm.trans (go_of_leads h)
    rw [hq] at hget
    by_cases hr : rest = []
    · exact Or.inl hr
    · -- the walk goes on behind its end, so a link is there that is not followed in the end
      cases hs' : s.node? with
      | none =>
        rw [go_missing hn (hget.trans hs'), if_neg hr] at hlast
        cases hlast
      | some node =>
        cases node with
        | folder =>
          cases s with
          | taken => cases hs'; exact hs.elim
          | vacant => cases hs'
        | file =>
          -- a file cannot be passed
          rw [go_file hn (hget.trans hs'), if_neg hr] at hlast
          cases hlast
        | link target =>
          cases follow with
          | false => exact Or.inr ⟨rfl, target, rfl⟩
          | true =>
            cases s with
            | taken => cases hs'; exact absurd rfl h.not_link
            | vacant => cases hs'

end Walk

/-! ### Paths -/

namespace Tree

open Walk

variable {t t' : Tree} {cwd place : Location} {follow : Bool} {path : String} {s s' : Spot}
  {content : List UInt8} {mode : Nat} {time : Option Time.Instant}

/-- A text that leads somewhere is a path. -/
theorem isPath_of_walk (h : t.walk cwd follow path = .ok s) : IsPath path := by
  unfold walk at h
  split at h
  · cases h
  rename_i hzero
  split at h
  · cases h
  rename_i hempty
  split at h
  · cases h
  rename_i hlong
  exact ⟨eq_false_of_ne_true hzero, eq_false_of_ne_true hempty, Nat.not_lt.mp hlong⟩

theorem walk_of_isPath (h : IsPath path) (t : Tree) (cwd : Location) (follow : Bool) :
    t.walk cwd follow path = go t follow linkLimit (start cwd path) (steps path) := by
  unfold walk
  rw [h.no_zero, h.not_empty, if_neg Bool.false_ne_true, if_neg Bool.false_ne_true,
    if_neg (Nat.not_lt.mpr h.fits)]

/-- Whether a text is a path at all does not depend on the tree. -/
theorem walk_eq_go (h : t.walk cwd follow path = .ok s) (t' : Tree) (follow' : Bool) :
    t'.walk cwd follow' path = go t' follow' linkLimit (start cwd path) (steps path) :=
  walk_of_isPath (isPath_of_walk h) t' cwd follow'

theorem leads_of_walk (h : t.walk cwd follow path = .ok s) :
    Leads t follow linkLimit (start cwd path) (steps path) s :=
  leads_of_go ((walk_eq_go h t follow).symm.trans h)

/-- The walk of a path with known steps. -/
theorem walk_of_leads {names : List String} (hp : IsPath path) (hsteps : steps path = names)
    (h : Leads t follow linkLimit (start cwd path) names s) : t.walk cwd follow path = .ok s := by
  rw [walk_of_isPath hp, hsteps, go_of_leads h]

/-- The walk of a path with a single name, to a file. -/
theorem walk_of_name {name : String} (hp : IsPath path) (hsteps : steps path = [name])
    (hn : IsName name)
    (hget : t.get? (start cwd path ++ [name]) = some (.file content mode time)) :
    t.walk cwd follow path = .ok (.taken (start cwd path ++ [name]) (.file content mode time)) :=
  walk_of_leads hp hsteps (.file hn hget)

/-- The walk of a path with a single name that nothing has yet. -/
theorem walk_of_new_name {name : String} (hp : IsPath path) (hsteps : steps path = [name])
    (hn : IsName name) (hget : t.get? (start cwd path ++ [name]) = none) :
    t.walk cwd follow path = .ok (.vacant (start cwd path) name) :=
  walk_of_leads hp hsteps (.vacant hn hget)

/-- Paths in trees that agree everywhere lead to the same spots. -/
theorem walk_congr (h : Same t t') : t'.walk cwd follow path = t.walk cwd follow path := by
  unfold walk
  rw [go_congr h]

/-- What is at the end of a path. -/
theorem get?_of_walk (h : t.walk cwd follow path = .ok s) (hs : s.IsOpen) :
    t.get? s.place = s.node? :=
  (leads_of_walk h).get? hs

/-- If the last link of a path is not followed, the path leads to the same spot or to that
link. -/
theorem walk_follow (h : t.walk cwd true path = .ok s) :
    t.walk cwd false path = .ok s ∨
      ∃ place target, t.walk cwd false path = .ok (.taken place (.link target)) := by
  have hgo := (walk_eq_go h t true).symm.trans h
  rw [walk_eq_go h]
  rcases go_follow t linkLimit (start cwd path) (steps path) with heq | hlink
  · exact Or.inl (heq.symm.trans hgo)
  · exact Or.inr hlink

/-- A path that does not end at a link leads to the same spot if links are followed. -/
theorem walk_followed (h : t.walk cwd false path = .ok s)
    (hs : ∀ target, s.node? ≠ some (.link target)) : t.walk cwd true path = .ok s := by
  have hgo := (walk_eq_go h t false).symm.trans h
  rw [walk_eq_go h]
  rcases go_follow t linkLimit (start cwd path) (steps path) with heq | ⟨place, target, hlink⟩
  · exact heq.trans hgo
  · obtain rfl := Except.ok.inj (hlink.symm.trans hgo)
    exact absurd rfl (hs target)

/-- **A path leads to the same entry** in a tree that has at least the same entries. -/
theorem walk_keeps {node : Node} (hk : Keeps t t')
    (h : t.walk cwd follow path = .ok (.taken place node)) :
    t'.walk cwd follow path = .ok (.taken place node) := by
  rw [walk_eq_go h]
  exact go_of_leads ((leads_of_walk h).keeps nofun hk)

/-- A path that leads to a place for a file still does so if there is a file more. -/
theorem walk_beside_open {site : Location} (hb : Beside site t t')
    (hf : t'.get? site = some (.file content mode time)) (h : t.walk cwd follow path = .ok s)
    (hs : s.IsOpen) : ∃ s', t'.walk cwd follow path = .ok s' ∧ s'.IsOpen := by
  obtain ⟨folder, name, rfl⟩ := exists_concat (ne_nil_of_none hb.1)
  have hgo := (walk_eq_go h t follow).symm.trans h
  rw [walk_eq_go h]
  rcases (leads_of_go hgo).comes_by folder name with hall | ⟨left, rest, hn, hall⟩
  · exact ⟨s, hall t' hb.2, hs⟩
  · -- nothing was where the file is now, so a walk that came there ended there
    rw [hall t (SameOff.refl _ t), go_missing hn hb.1] at hgo
    split at hgo
    · rename_i hrest
      refine ⟨.taken (folder ++ [name]) (.file content mode time), ?_, trivial⟩
      rw [hall t' hb.2, go_file hn hf, if_pos hrest]
    · cases hgo

/-- In a tree that has a file more, a path leads to the same place as before. -/
theorem walk_before {site : Location} (hb : Beside site t t')
    (hf : t'.get? site = some (.file content mode time))
    (h : t'.walk cwd follow path = .ok s) :
    t.walk cwd follow path = .ok s ∨
      ∃ s', t.walk cwd follow path = .ok s' ∧ s'.place = s.place ∧ s'.node? = none := by
  obtain ⟨folder, name, rfl⟩ := exists_concat (ne_nil_of_none hb.1)
  have hback : SameOff (folder ++ [name]) t' t := fun other ho => (hb.2 other ho).symm
  have hgo := (walk_eq_go h t' follow).symm.trans h
  rw [walk_eq_go h]
  rcases (leads_of_go hgo).comes_by folder name with hall | ⟨left, rest, hn, hall⟩
  · exact Or.inl (hall t hback)
  · rw [hall t' (SameOff.refl _ t'), go_file hn hf] at hgo
    split at hgo
    · rename_i hrest
      cases hgo
      exact Or.inr ⟨.vacant folder name,
        by rw [hall t hback, go_missing hn hb.1, if_pos hrest], rfl, rfl⟩
    · cases hgo

/-- If a path leads to a place for a file, it led to that place without the file that there is
more. -/
theorem walk_before_open {site : Location} (hb : Beside site t t')
    (hf : t'.get? site = some (.file content mode time)) (h : t'.walk cwd follow path = .ok s)
    (hs : s.IsOpen) : ∃ s', t.walk cwd follow path = .ok s' ∧ s'.place = s.place ∧ s'.IsOpen := by
  rcases walk_before hb hf h with hw | ⟨s', hw, hplace, hnode⟩
  · exact ⟨s, hw, rfl, hs⟩
  · refine ⟨s', hw, hplace, ?_⟩
    cases s' with
    | taken => cases hnode
    | vacant => trivial

/-- **A path that is followed leads to the file at its end**, whatever file is put there. -/
theorem walk_refilled (h : t.walk cwd true path = .ok s) (hs : s.IsOpen)
    (ht : SameOff s.place t t') (hf : t'.get? s.place = some (.file content mode time)) :
    t'.walk cwd true path = .ok (.taken s.place (.file content mode time)) := by
  obtain ⟨left, folder, name, rest, hq, hn, hall, hr⟩ := (leads_of_walk h).ends_by hs
  rcases hr with rfl | ⟨hc, _⟩
  · rw [walk_eq_go h, hall t' ht, go_file hn (hq ▸ hf), if_pos rfl, hq]
  · cases hc

/-- Without the file that a path led to, just the last name is missing. -/
theorem walk_removed (h : t.walk cwd true path = .ok s) (hs : s.IsOpen)
    (ht : SameOff s.place t t') (hf : t'.get? s.place = none) :
    ∃ folder name, s.place = folder ++ [name] ∧
      t'.walk cwd true path = .ok (.vacant folder name) := by
  obtain ⟨left, folder, name, rest, hq, hn, hall, hr⟩ := (leads_of_walk h).ends_by hs
  rcases hr with rfl | ⟨hc, _⟩
  · refine ⟨folder, name, hq, ?_⟩
    rw [walk_eq_go h, hall t' ht, go_missing hn (hq ▸ hf), if_pos rfl]
  · cases hc

/-- **A path that ends elsewhere does not come by a file**: it leads to the same spot if that file
is written, created or removed. -/
theorem walk_past {site : Location} (h : t.walk cwd follow path = .ok s) (hne : site ≠ [])
    (hsite : t.get? site = none ∨
      ∃ content mode time, t.get? site = some (.file content mode time))
    (hs : s.place ≠ site) (ht : SameOff site t t') : t'.walk cwd follow path = .ok s := by
  obtain ⟨folder, name, rfl⟩ := exists_concat hne
  have hgo := (walk_eq_go h t follow).symm.trans h
  rw [walk_eq_go h]
  rcases (leads_of_go hgo).comes_by folder name with hall | ⟨left, rest, hn, hall⟩
  · exact hall t' ht
  · -- a walk that came by a file, or by nothing, would have ended there
    rw [hall t (SameOff.refl _ t)] at hgo
    rcases hsite with hnone | ⟨content, mode, time, hfile⟩
    · rw [go_missing hn hnone] at hgo
      split at hgo
      · cases hgo
        exact absurd rfl hs
      · cases hgo
    · rw [go_file hn hfile] at hgo
      split at hgo
      · cases hgo
        exact absurd rfl hs
      · cases hgo

/-- **The path does not come by a place**: it goes the same way whatever is there. -/
def Bypasses (t : Tree) (cwd : Location) (path : String) (site : Location) : Prop :=
  ∀ t', SameOff site t t' → t'.walk cwd true path = t.walk cwd true path

/-- **A path either passes a place by or comes there**, after some steps that do not depend on what
is there. -/
theorem walk_comes_by (t : Tree) (cwd : Location) (path : String) (folder : Location)
    (name : String) :
    t.Bypasses cwd path (folder ++ [name]) ∨
      ∃ left rest, IsName name ∧ ∀ t', SameOff (folder ++ [name]) t t' →
        t'.walk cwd true path = go t' true left folder (name :: rest) := by
  by_cases hp : IsPath path
  · refine (go_comes_by t true linkLimit (start cwd path) (steps path) folder name).imp ?_ ?_
    · intro hall t' ht
      rw [walk_of_isPath hp, walk_of_isPath hp, hall t' ht]
    · rintro ⟨left, rest, hn, hall⟩
      exact ⟨left, rest, hn, fun t' ht => by rw [walk_of_isPath hp, hall t' ht]⟩
  · -- a text that is no path leads nowhere in any tree
    refine Or.inl fun t' _ => ?_
    unfold walk
    split
    · rfl
    rename_i hzero
    split
    · rfl
    rename_i hempty
    split
    · rfl
    rename_i hlong
    exact absurd ⟨eq_false_of_ne_true hzero, eq_false_of_ne_true hempty, Nat.not_lt.mp hlong⟩ hp

/-- **A path that leads nowhere leads nowhere**, for the same reason, whatever the bytes of a file
are. -/
theorem walk_rewritten {site : Location} {content' : List UInt8} {mode' : Nat}
    {time' : Option Time.Instant} (h : ∀ place e, t.walk cwd true path ≠ .ok (.taken place e))
    (hf : t.get? site = some (.file content mode time)) (ht : SameOff site t t')
    (hf' : t'.get? site = some (.file content' mode' time')) :
    t'.walk cwd true path = t.walk cwd true path := by
  obtain ⟨folder, name, rfl⟩ := exists_concat (ne_nil_of_file hf)
  rcases t.walk_comes_by cwd path folder name with hpast | ⟨left, rest, hn, hall⟩
  · exact hpast t' ht
  · -- the path comes by the file, and has more names behind it
    have hthere := hall t (SameOff.refl _ t)
    rw [go_file hn hf] at hthere
    rw [hall t' ht, go_file hn hf', hthere]
    split
    · rename_i hrest
      rw [if_pos hrest] at hthere
      exact absurd hthere (h _ _)
    · rfl

/-- **The path ends at the entry of a place**: without it, just the last name is missing. -/
def EndsAt (t : Tree) (cwd : Location) (path : String) (site : Location) : Prop :=
  ∃ folder name, site = folder ++ [name] ∧
    (t.erase site).walk cwd true path = .ok (.vacant folder name)

/-- A path that ends at a place leads to the file that is put there. -/
theorem EndsAt.walk {site : Location} (h : t.EndsAt cwd path site) (ht : SameOff site t t')
    (hf : t'.get? site = some (.file content mode time)) :
    t'.walk cwd true path = .ok (.taken site (.file content mode time)) := by
  obtain ⟨folder, name, rfl, hw⟩ := h
  refine walk_refilled hw trivial (fun other (ho : other ≠ folder ++ [name]) => ?_) hf
  exact (ht other ho).trans (get?_erase_of_ne ho).symm

/-- **A path that does not end at a place leads past the file that is put there**, to where it has
always led. -/
theorem walk_of_not_endsAt {site : Location} {e : Node} (h : ¬ t.EndsAt cwd path site)
    (ht : SameOff site t t') (hf : t'.get? site = some (.file content mode time))
    (hw : t'.walk cwd true path = .ok (.taken place e)) :
    t.walk cwd true path = .ok (.taken place e) := by
  obtain ⟨folder, name, rfl⟩ := exists_concat (ne_nil_of_file hf)
  have hback : SameOff (folder ++ [name]) t' t := fun other ho => (ht other ho).symm
  rcases t'.walk_comes_by cwd path folder name with hpast | ⟨left, rest, hn, hall⟩
  · rw [hpast t hback, hw]
  · -- the path comes by the new file, so that is where it ends
    rw [hall t' (SameOff.refl _ t'), go_file hn hf] at hw
    split at hw
    · rename_i hrest
      refine absurd ⟨folder, name, rfl, ?_⟩ h
      rw [hall _ (hback.trans (sameOff_erase t _)), go_missing hn (get?_erase_self (by simp)),
        if_pos hrest]
    · cases hw

/-- A path that leads to a file ends at its entry. -/
theorem endsAt_of_walk (h : t.walk cwd true path = .ok s) (hs : s.IsOpen) :
    t.EndsAt cwd path s.place :=
  walk_removed h hs (sameOff_erase t s.place)
    (get?_erase_self ((leads_of_walk h).place_ne_nil hs))

/-- **The path retraces its end**: the link that it ends at, if it is not followed, is passed on the
way to it. Without it the path breaks off. -/
def Retraces (t : Tree) (cwd : Location) (path : String) : Prop :=
  ∃ s, t.walk cwd false path = .ok s ∧ s.IsOpen ∧
    (t.erase s.place).walk cwd false path = .error .notFound

/-- The two ways in which a path can come to its end for the first time. -/
theorem ends_or_retraces (h : t.walk cwd false path = .ok s) (hs : s.IsOpen) :
    ∃ left folder name rest, s.place = folder ++ [name] ∧ IsName name ∧
      (∀ t', SameOff s.place t t' →
        go t' false linkLimit (start cwd path) (steps path) =
          go t' false left folder (name :: rest)) ∧
      (rest = [] ∧ ¬ Retraces t cwd path ∨
        rest ≠ [] ∧ Retraces t cwd path ∧ ∃ target, s.node? = some (.link target)) := by
  obtain ⟨left, folder, name, rest, hq, hn, hall, hr⟩ := (leads_of_walk h).ends_by hs
  refine ⟨left, folder, name, rest, hq, hn, hall, ?_⟩
  have hgone : (t.erase s.place).get? (folder ++ [name]) = none := by
    rw [hq]
    exact get?_erase_self (by simp)
  have herase := walk_eq_go h (t.erase s.place) false
  rw [hall _ (sameOff_erase t s.place), go_missing hn hgone] at herase
  by_cases hrest : rest = []
  · refine Or.inl ⟨hrest, ?_⟩
    rintro ⟨s', hs', _, hbroken⟩
    obtain rfl := Except.ok.inj (h.symm.trans hs')
    rw [herase, if_pos hrest] at hbroken
    cases hbroken
  · refine Or.inr ⟨hrest, ⟨s, h, hs, ?_⟩, (hr.resolve_left hrest).2⟩
    rw [herase, if_neg hrest]

/-- A path that does not retrace its end ends at the entry there, be it a link or not. -/
theorem endsAt_of_not_retraces (h : t.walk cwd false path = .ok s) (hs : s.IsOpen)
    (hr : ¬ Retraces t cwd path) : t.EndsAt cwd path s.place := by
  obtain ⟨left, folder, name, rest, hq, hn, hall, hlast⟩ := ends_or_retraces h hs
  rcases hlast with ⟨rfl, _⟩ | ⟨_, hc, _⟩
  · have hplain : (t.erase s.place).walk cwd false path = .ok (.vacant folder name) := by
      rw [walk_eq_go h, hall _ (sameOff_erase t s.place), go_missing hn, if_pos rfl]
      rw [hq]
      exact get?_erase_self (by simp)
    exact ⟨folder, name, hq, walk_followed hplain nofun⟩
  · exact absurd hc hr

/-- **A path whose end is replaced by a file leads to that file**, unless the path retraces its
end. -/
theorem walk_replaced (h : t.walk cwd false path = .ok s) (hs : s.IsOpen)
    (hr : ¬ Retraces t cwd path) (ht : SameOff s.place t t')
    (hf : t'.get? s.place = some (.file content mode time)) :
    t'.walk cwd true path = .ok (.taken s.place (.file content mode time)) :=
  (endsAt_of_not_retraces h hs hr).walk ht hf

/-- A path that retraces its end is broken if the end is replaced by a file. -/
theorem walk_retraced (h : t.walk cwd false path = .ok s) (hs : s.IsOpen)
    (hr : Retraces t cwd path) (ht : SameOff s.place t t')
    (hf : t'.get? s.place = some (.file content mode time)) :
    t'.walk cwd true path = .error .notADirectory := by
  obtain ⟨left, folder, name, rest, hq, hn, hall, hlast⟩ := ends_or_retraces h hs
  rcases hlast with ⟨_, hc⟩ | ⟨hrest, _⟩
  · exact absurd hr hc
  · have hplain : go t' false linkLimit (start cwd path) (steps path) = .error .notADirectory := by
      rw [hall t' ht, go_file hn (hq ▸ hf), if_neg hrest]
    rw [walk_eq_go h]
    rcases go_follow t' linkLimit (start cwd path) (steps path) with heq | ⟨_, _, hlink⟩
    · exact heq.trans hplain
    · rw [hplain] at hlink
      cases hlink

/-- What a path to a link leads to, if the link is followed, is what the link leads to. -/
theorem go_behind_link {target : String}
    (h : t.walk cwd false path = .ok (.taken place (.link target)))
    (h' : t.walk cwd true path = .ok s) :
    ∃ left, go t true left (start place.dropLast target) (steps target) = .ok s :=
  (leads_of_walk h).behind_link rfl ((walk_eq_go h t true).symm.trans h')

/-- **A path that leads to a file does not retrace its end.** -/
theorem not_retraces_of_file (h : t.walk cwd true path = .ok s) (hs : s.IsOpen) :
    ¬ Retraces t cwd path := by
  rintro ⟨s', hs', hopen, hbroken⟩
  obtain ⟨left, folder, name, rest, hq, hn, hall, hlast⟩ := ends_or_retraces hs' hopen
  rcases hlast with ⟨_, hc⟩ | ⟨hrest, _, target, hlink⟩
  · exact hc ⟨s', hs', hopen, hbroken⟩
  · -- what the link leads to is passed on the way, and it would be a file
    have hget : t.get? (folder ++ [name]) = some (.link target) := by
      rw [← hq, get?_of_walk hs' hopen, hlink]
    have hgo : go t false left folder (name :: rest) = .ok s' :=
      (hall t (SameOff.refl _ t)).symm.trans ((walk_eq_go hs' t false).symm.trans hs')
    obtain ⟨place, rfl⟩ : ∃ place, s' = .taken place (.link target) := by
      cases s' with
      | taken place node => cases hlink; exact ⟨place, rfl⟩
      | vacant => cases hlink
    obtain ⟨left', hbehind⟩ := go_behind_link hs' h
    rw [show place = folder ++ [name] from hq, List.dropLast_concat] at hbehind
    cases left with
    | zero =>
      rw [go_name hn, hget] at hgo
      simp [hrest] at hgo
    | succ left =>
      rcases he : target.isEmpty with _ | _
      · rw [go_through hn hget he (Or.inl hrest)] at hgo
        exact (leads_of_go hbehind).not_append hs hrest hgo
      · rw [go_name hn, hget] at hgo
        simp [hrest, he] at hgo

/-- **Paths that lead to different places do not meet at their ends**: a path leads to its file
whatever becomes of the end of a path to another place. -/
theorem walk_apart {other : String} {node : Node}
    (h : t.walk cwd true path = .ok (.taken place node))
    (hs' : t.walk cwd follow other = .ok s') (hopen' : s'.IsOpen)
    (hs : t.walk cwd true other = .ok s) (hopen : s.IsOpen) (hne : s.place ≠ place)
    (ht : SameOff s'.place t t') : t'.walk cwd true path = .ok (.taken place node) := by
  obtain ⟨folder, name, hq⟩ := exists_concat ((leads_of_walk hs').place_ne_nil hopen')
  have hget : t.get? (folder ++ [name]) = s'.node? := hq ▸ get?_of_walk hs' hopen'
  have hgo := (walk_eq_go h t true).symm.trans h
  rw [walk_eq_go h]
  rcases (leads_of_go hgo).comes_by folder name with hall | ⟨left, rest, hn, hall⟩
  · exact hall t' (hq ▸ ht)
  -- the path comes by the end of the other one, so they lead to the same place
  rw [hall t (SameOff.refl _ t)] at hgo
  have hplain (hs'' : ∀ target, s'.node? ≠ some (.link target)) : s = s' := by
    cases follow with
    | true => exact Except.ok.inj (hs.symm.trans hs')
    | false => exact Except.ok.inj (hs.symm.trans (walk_followed hs' hs''))
  rcases s' with ⟨place', content' | _ | target⟩ | ⟨folder', name'⟩
  · rw [go_file hn hget] at hgo
    split at hgo
    · cases hgo
      exact absurd ((congrArg Spot.place (hplain nofun)).trans hq) hne
    · cases hgo
  · exact hopen'.elim
  · cases follow with
    | true => exact absurd rfl (leads_of_walk hs').not_link
    | false =>
      obtain ⟨left', hbehind⟩ := go_behind_link hs' hs
      rw [show place' = folder ++ [name] from hq, List.dropLast_concat] at hbehind
      cases left with
      | zero =>
        rw [go_name hn, hget] at hgo
        simp [Spot.node?] at hgo
      | succ left =>
        rcases he : target.isEmpty with _ | _
        · rw [go_through hn hget he (Or.inr rfl)] at hgo
          by_cases hrest : rest = []
          · -- the path goes where the link leads, and that is the place of the other path
            rw [hrest, List.append_nil] at hgo
            exact absurd (congrArg Spot.place (go_unique hbehind hgo)) hne
          · exact absurd hgo ((leads_of_go hbehind).not_append hopen hrest)
        · rw [go_name hn, hget] at hgo
          simp [Spot.node?, he] at hgo
  · rw [go_missing hn hget] at hgo
    split at hgo <;> cases hgo

end Tree
end RangeSync
