import RangeSync.Proofs.Ending
import RangeSync.Proofs.Walk

/-!
# What operations on files do

Each operation on a disk has one lemma here, which says how it ends: what it answers, what it does
to the tree, and for what reasons it fails. An operation that fails has done nothing. The lemmas are
all that the rest of the development knows of the operations.

Three relations between disks keep the lemmas short. `RangeSync.Disk.Kept` says that an operation
did nothing, `RangeSync.Disk.Turned` that it made one step to another tree, and
`RangeSync.Disk.Along` speaks of all trees that a disk went through: a run that is cut off at any
point leaves one of them behind.
-/

namespace RangeSync.Disk

open Act Text

variable {d d' d'' : Disk} {t : Tree} {P Q : Tree → Prop} {place : Location} {path : String}

/-- The system refuses an operation for this reason. -/
def Refuses (d : Disk) (kind : IoKind) : Prop :=
  ∃ number, d.refuses number = some kind

/-- The last operation that was tried was refused, for this reason. -/
def Halted (d : Disk) (kind : IoKind) : Prop :=
  ∃ number, d.tried = number + 1 ∧ d.refuses number = some kind

/-- The system refuses nothing. -/
def IsObliging (d : Disk) : Prop :=
  ∀ kind, ¬ d.Refuses kind

/-! ### Disks before and after -/

/-- Nothing was done to the tree. -/
structure Kept (d d' : Disk) : Prop where
  tree : d'.tree = d.tree
  past : d'.past = d.past
  cwd : d'.cwd = d.cwd
  refuses : d'.refuses = d.refuses

/-- The tree was turned into another one, in one step. -/
structure Turned (d : Disk) (t : Tree) (d' : Disk) : Prop where
  tree : d'.tree = t
  past : d'.past = d.tree :: d.past
  cwd : d'.cwd = d.cwd
  refuses : d'.refuses = d.refuses

/-- **All trees on the way** from one disk to another, the last one included, have a property. -/
structure Along (P : Tree → Prop) (d d' : Disk) : Prop where
  trees : ∃ new, d'.tree :: d'.past = new ++ d.tree :: d.past ∧ ∀ t ∈ new, P t
  cwd : d'.cwd = d.cwd
  refuses : d'.refuses = d.refuses

theorem Kept.refl (d : Disk) : Kept d d :=
  ⟨rfl, rfl, rfl, rfl⟩

theorem Kept.trans (h : Kept d d') (h' : Kept d' d'') : Kept d d'' :=
  ⟨h'.tree.trans h.tree, h'.past.trans h.past, h'.cwd.trans h.cwd, h'.refuses.trans h.refuses⟩

theorem Kept.turned (h : Kept d d') (h' : Turned d' t d'') : Turned d t d'' :=
  ⟨h'.tree, by rw [h'.past, h.tree, h.past], h'.cwd.trans h.cwd, h'.refuses.trans h.refuses⟩

theorem Kept.along (h : Kept d d') : Along P d d' :=
  ⟨⟨[], by rw [h.tree, h.past, List.nil_append], nofun⟩, h.cwd, h.refuses⟩

theorem Turned.along (h : Turned d t d') (ht : P t) : Along P d d' := by
  refine ⟨⟨[t], by rw [h.tree, h.past, List.singleton_append], ?_⟩, h.cwd, h.refuses⟩
  intro t' ht'
  rwa [List.mem_singleton.mp ht']

/-- What is put on record of spools does nothing to the tree. -/
theorem Kept.recorded (h : Kept d d') (lengths : List Nat) :
    Kept d { d' with spooled := lengths } :=
  ⟨h.tree, h.past, h.cwd, h.refuses⟩

theorem Along.refl (P : Tree → Prop) (d : Disk) : Along P d d :=
  (Kept.refl d).along

theorem Along.mono (h : Along P d d') (hpq : ∀ t, P t → Q t) : Along Q d d' := by
  obtain ⟨new, hnew, hp⟩ := h.trees
  exact ⟨⟨new, hnew, fun t ht => hpq t (hp t ht)⟩, h.cwd, h.refuses⟩

theorem Along.trans (h : Along P d d') (h' : Along P d' d'') : Along P d d'' := by
  obtain ⟨new, hnew, hp⟩ := h.trees
  obtain ⟨new', hnew', hp'⟩ := h'.trees
  refine ⟨⟨new' ++ new, by rw [hnew', hnew, List.append_assoc], ?_⟩, h'.cwd.trans h.cwd,
    h'.refuses.trans h.refuses⟩
  intro t ht
  exact (List.mem_append.mp ht).elim (hp' t) (hp t)

/-- What holds along the way holds at its end, if it holds at its start. -/
theorem Along.tree (h : Along P d d') (hd : P d.tree) : P d'.tree := by
  obtain ⟨new, hnew, hp⟩ := h.trees
  cases new with
  | nil => exact (List.cons.inj hnew).1 ▸ hd
  | cons t rest => exact (List.cons.inj hnew).1 ▸ hp t List.mem_cons_self

theorem refuses_congr (h : d'.refuses = d.refuses) {kind : IoKind} (hr : d'.Refuses kind) :
    d.Refuses kind := by
  obtain ⟨number, hn⟩ := hr
  exact ⟨number, h ▸ hn⟩

/-- What was refused last is refused at all. -/
theorem Halted.refuses {kind : IoKind} (h : d'.Halted kind) (hr : d'.refuses = d.refuses) :
    d.Refuses kind := by
  obtain ⟨number, _, hn⟩ := h
  exact ⟨number, hr ▸ hn⟩

theorem IsObliging.congr (h : d'.refuses = d.refuses) (hd : d.IsObliging) : d'.IsObliging :=
  fun kind hr => hd kind (refuses_congr h hr)

/-- A disk that holds a tree refuses nothing. -/
theorem isObliging_ofTree (cwd : Location) (t : Tree) : (ofTree cwd t).IsObliging := by
  rintro kind ⟨number, hn⟩
  cases hn

/-! ### Trying and looking -/

variable {α : Type} {post : α → Disk → Prop} {fail : IoKind → Disk → Prop}

/-- Trying an operation: it is the last one that was tried then. -/
theorem ends_try (d : Disk) :
    attempt.Ends d (fun _ d' => d.Kept d') fun kind d' => d.Kept d' ∧ d'.Halted kind := by
  unfold attempt
  simp only [ends_bind, ends_get, ends_set]
  split
  · rename_i kind h
    exact ⟨⟨rfl, rfl, rfl, rfl⟩, ⟨_, rfl, h⟩⟩
  · exact ⟨rfl, rfl, rfl, rfl⟩

theorem ends_attempt (d : Disk) :
    attempt.Ends d (fun _ d' => d.Kept d') fun kind d' => d.Kept d' ∧ d.Refuses kind :=
  (ends_try d).mono (fun _ _ h => h) fun _ _ ⟨hk, hr⟩ => ⟨hk, hr.refuses hk.refuses⟩

theorem ends_change {f : Tree → Tree} {post : Unit → Disk → Prop}
    (h : ∀ d', d.Turned (f d.tree) d' → post () d') : (change f).Ends d post fail :=
  h _ ⟨rfl, rfl, rfl, rfl⟩

theorem ends_spot {follow : Bool} {post : Spot → Disk → Prop} :
    (spot follow path).Ends d post fail ↔
      match d.tree.walk d.cwd follow path with
      | .ok s => post s d
      | .error kind => fail kind d := by
  unfold spot
  rw [ends_bind, ends_get]
  rcases d.tree.walk d.cwd follow path with _ | _ <;> rfl

theorem ends_node {follow : Bool} {post : Location × Node → Disk → Prop} :
    (node follow path).Ends d post fail ↔
      match d.tree.walk d.cwd follow path with
      | .ok (.taken place e) => post (place, e) d
      | .ok (.vacant _ _) => fail .notFound d
      | .error kind => fail kind d := by
  unfold node
  rw [ends_bind, ends_spot]
  rcases d.tree.walk d.cwd follow path with kind | (_ | _) <;> rfl

/-- Looking for a file changes nothing. -/
theorem ends_isFile {post : Bool → Disk → Prop} (h : ∀ b, post b d) :
    (isFile path).Ends d post fail := by
  unfold isFile
  rw [ends_bind, ends_get]
  split <;> exact h _

/-- A path leads to the file. -/
def FileAt (d : Disk) (path : String) (place : Location) (content : List UInt8) : Prop :=
  ∃ mode time, d.tree.walk d.cwd true path = .ok (.taken place (.file content mode time))

/-- The file that a single name has. -/
theorem fileAt_of_name {name : String} {content : List UInt8} {mode : Nat}
    {time : Option Time.Instant} (hp : Walk.IsPath path) (hsteps : Walk.steps path = [name])
    (hn : Walk.IsName name)
    (hget : d.tree.get? (Walk.start d.cwd path ++ [name]) = some (.file content mode time)) :
    d.FileAt path (Walk.start d.cwd path ++ [name]) content :=
  ⟨mode, time, Tree.walk_of_name hp hsteps hn hget⟩

theorem ends_isFile_of {content : List UInt8} (h : d.FileAt path place content) :
    (isFile path).Ends d (fun b d' => b = true ∧ d' = d) fun _ _ => False := by
  obtain ⟨mode, time, hw⟩ := h
  unfold isFile
  rw [ends_bind, ends_get, hw]
  exact ⟨rfl, rfl⟩

/-- The place that a path leads to, if it is taken. -/
def placeOf? (d : Disk) (path : String) : Option Location :=
  match d.tree.walk d.cwd true path with
  | .ok (.taken place _) => some place
  | _ => none

theorem FileAt.placeOf? {content : List UInt8} (h : d.FileAt path place content) :
    d.placeOf? path = some place := by
  obtain ⟨mode, time, hw⟩ := h
  rw [Disk.placeOf?, hw]

theorem Kept.placeOf? (h : Kept d d') (path : String) : d'.placeOf? path = d.placeOf? path := by
  rw [Disk.placeOf?, Disk.placeOf?, h.tree, h.cwd]

theorem ends_canonical? {post : Option Location → Disk → Prop} :
    (canonical? path).Ends d post fail ↔ post (d.placeOf? path) d := by
  unfold canonical? placeOf?
  rw [ends_bind, ends_get]
  rcases d.tree.walk d.cwd true path with kind | (_ | _) <;> rfl

/-- The permission bits of what a path leads to; what stands in for bits that are not there does
not matter. -/
theorem ends_mode? {post : Option Nat → Disk → Prop} :
    (mode? path).Ends d post fail ↔
      post (match d.tree.walk d.cwd true path with
        | .ok (.taken _ (.file _ mode _)) => some mode
        | .ok (.taken _ _) => some folderMode
        | _ => none) d := by
  unfold mode?
  rw [ends_bind, ends_get]
  rcases d.tree.walk d.cwd true path with kind | ⟨_, (_ | _ | _)⟩ | _ <;> rfl

/-- Why nothing is found at a path, if nothing is. -/
def missing? (d : Disk) (path : String) : Option IoKind :=
  match d.tree.walk d.cwd true path with
  | .ok (.taken _ _) => none
  | .ok (.vacant _ _) => some .notFound
  | .error kind => some kind

theorem not_taken_of_missing {kind : IoKind} {e : Node} (h : d.missing? path = some kind) :
    d.tree.walk d.cwd true path ≠ .ok (.taken place e) := by
  intro hw
  rw [missing?, hw] at h
  cases h

/-- A name that nothing has is missed. -/
theorem missing?_of_new_name {name : String} (hp : Walk.IsPath path)
    (hsteps : Walk.steps path = [name]) (hn : Walk.IsName name)
    (hget : d.tree.get? (Walk.start d.cwd path ++ [name]) = none) :
    d.missing? path = some .notFound := by
  rw [missing?, Tree.walk_of_new_name hp hsteps hn hget]

theorem Kept.missing? (h : Kept d d') (path : String) : d'.missing? path = d.missing? path := by
  rw [Disk.missing?, Disk.missing?, h.tree, h.cwd]

theorem ends_openForReading (d : Disk) (path : String) :
    (openForReading path).Ends d
      (fun place d' => d.Kept d' ∧ ∃ e, d.tree.walk d.cwd true path = .ok (.taken place e))
      fun kind d' => d.Kept d' ∧ (d.Refuses kind ∨ d.missing? path = some kind) := by
  unfold openForReading
  rw [ends_bind]
  refine (ends_attempt d).mono ?_ fun kind d' ⟨hk, hr⟩ => ⟨hk, Or.inl hr⟩
  intro _ d₁ hk
  rw [ends_bind, ends_node, hk.tree, hk.cwd, missing?]
  rcases hw : d.tree.walk d.cwd true path with kind | (⟨place, e⟩ | _)
  · exact ⟨hk, Or.inr rfl⟩
  · exact ⟨hk, e, rfl⟩
  · exact ⟨hk, Or.inr rfl⟩

/-- The bytes of an open file; anything else has none. -/
def bytesAt (d : Disk) (place : Location) : List UInt8 :=
  (d.tree.bytes? place).getD []

theorem bytesAt_eq {content : List UInt8} {mode : Nat} {time : Option Time.Instant}
    (h : d.tree.get? place = some (.file content mode time)) : d.bytesAt place = content := by
  rw [bytesAt, Tree.bytes?_eq h, Option.getD_some]

theorem FileAt.get? {content : List UInt8} (h : d.FileAt path place content) :
    ∃ mode time, d.tree.get? place = some (.file content mode time) := by
  obtain ⟨mode, time, hw⟩ := h
  exact ⟨mode, time, Tree.get?_of_walk hw trivial⟩

/-- Another path to the place of a file leads to the file, if it leads to a place for one. -/
theorem FileAt.of_placeOf? {other : String} {content : List UInt8}
    (h : d.FileAt path place content) (hplace : d.placeOf? other = some place)
    (hopen : ∃ s, d.tree.walk d.cwd true other = .ok s ∧ s.IsOpen) :
    d.FileAt other place content := by
  obtain ⟨s, hw, hs⟩ := hopen
  obtain ⟨mode, time, hget⟩ := h.get?
  rw [Disk.placeOf?, hw] at hplace
  cases s with
  | vacant => cases hplace
  | taken _ e =>
    cases hplace
    have hnode := hget.symm.trans (Tree.get?_of_walk hw hs)
    exact ⟨mode, time, hw.trans (by rw [Option.some.inj hnode])⟩

theorem FileAt.bytesAt {content : List UInt8} (h : d.FileAt path place content) :
    d.bytesAt place = content := by
  obtain ⟨mode, time, hget⟩ := h.get?
  exact bytesAt_eq hget

/-- A path leads to one file only. -/
theorem FileAt.eq_of_walk {content : List UInt8} {place' : Location} {e : Node}
    (h : d.FileAt path place content)
    (hw : d.tree.walk d.cwd true path = .ok (.taken place' e)) :
    place' = place ∧ ∃ mode time, e = .file content mode time := by
  obtain ⟨mode, time, hw'⟩ := h
  obtain ⟨rfl, rfl⟩ := Spot.taken.inj (Except.ok.inj (hw.symm.trans hw'))
  exact ⟨rfl, mode, time, rfl⟩

theorem ends_readAt (d : Disk) (place : Location) (position count : Nat) :
    (readAt place position count).Ends d
      (fun bytes d' => d.Kept d' ∧ bytes = ((d.bytesAt place).drop position).take count)
      fun kind d' => d.Kept d' ∧ (d.Refuses kind ∨ d.tree.get? place = some .folder) := by
  unfold readAt
  rw [ends_bind]
  refine (ends_attempt d).mono ?_ fun kind d' ⟨hk, hr⟩ => ⟨hk, Or.inl hr⟩
  intro _ d₁ hk
  rw [ends_bind, ends_get, hk.tree]
  rcases hg : d.tree.get? place with _ | (⟨content, _, _⟩ | _ | _)
  · exact ⟨hk, by simp [bytesAt, Tree.bytes?, hg]⟩
  · exact ⟨hk, by rw [bytesAt_eq hg]⟩
  · exact ⟨hk, Or.inr rfl⟩
  · exact ⟨hk, by simp [bytesAt, Tree.bytes?, hg]⟩

theorem ends_contents (d : Disk) (path : String) :
    (contents path).Ends d
      (fun bytes d' => d.Kept d' ∧
        ∃ place e, d.tree.walk d.cwd true path = .ok (.taken place e) ∧ bytes = d.bytesAt place)
      fun kind d' => d.Kept d' ∧
        (d.Refuses kind ∨ ∀ place content, ¬ d.FileAt path place content) := by
  unfold contents
  rw [ends_bind]
  refine (ends_openForReading d path).mono ?_ ?_
  · rintro place d₁ ⟨hk, e, hw⟩
    rw [ends_bind]
    refine (ends_attempt d₁).mono ?_ fun kind d' ⟨hk', hr⟩ =>
      ⟨hk.trans hk', Or.inl (refuses_congr hk.refuses hr)⟩
    intro _ d₂ hk'
    have hkept := hk.trans hk'
    rw [ends_bind, ends_get, hkept.tree]
    rcases hg : d.tree.get? place with _ | (⟨content, _, _⟩ | _ | _)
    · exact ⟨hkept, place, e, hw, by simp [bytesAt, Tree.bytes?, hg]⟩
    · exact ⟨hkept, place, e, hw, (bytesAt_eq hg).symm⟩
    · refine ⟨hkept, Or.inr ?_⟩
      intro place' content hfile
      obtain ⟨rfl, -⟩ := hfile.eq_of_walk hw
      obtain ⟨_, _, hget⟩ := hfile.get?
      cases hg.symm.trans hget
    · exact ⟨hkept, place, e, hw, by simp [bytesAt, Tree.bytes?, hg]⟩
  · rintro kind d₁ ⟨hk, hr | hr⟩
    · exact ⟨hk, Or.inl hr⟩
    · refine ⟨hk, Or.inr ?_⟩
      rintro place content ⟨mode, time, hw⟩
      exact not_taken_of_missing hr hw

/-! ### Files that are written -/

/-- A file can be created at the path, or is there. -/
def CanCreate (d : Disk) (path : String) : Prop :=
  Path.endsInSlash path = false ∧ ∃ s, d.tree.walk d.cwd true path = .ok s ∧ s.IsOpen

theorem ends_spotToCreate (d : Disk) (path : String) :
    (spotToCreate path).Ends d
      (fun s d' => d' = d ∧ Path.endsInSlash path = false ∧ d.tree.walk d.cwd true path = .ok s)
      fun _ d' => d' = d ∧ ¬ d.CanCreate path := by
  unfold spotToCreate
  split
  · rename_i hslash
    have hno : ¬ d.CanCreate path := fun hc => by
      rw [hc.1] at hslash
      cases hslash
    rw [ends_bind, ends_spot]
    split
    · exact ⟨rfl, hno⟩
    · exact ⟨rfl, hno⟩
  · rename_i hslash
    rw [ends_spot]
    split
    · rename_i s hw
      exact ⟨rfl, by simpa using hslash, hw⟩
    · rename_i hw
      refine ⟨rfl, ?_⟩
      rintro ⟨_, s, hw', _⟩
      rw [hw] at hw'
      cases hw'

/-- The permission bits that a file has after it is opened for writing. -/
def modeFor (s : Spot) : Nat :=
  match s with
  | .taken _ (.file _ mode _) => mode
  | _ => defaultMode

/-- **Opening for writing** leaves an empty file where the path leads to, through all links. -/
theorem ends_openTruncated (d : Disk) (path : String) :
    (openTruncated path).Ends d
      (fun place d' => ∃ s, d.tree.walk d.cwd true path = .ok s ∧ s.IsOpen ∧ place = s.place ∧
        d.Turned (d.tree.put s.place (.file [] (modeFor s) none)) d')
      fun kind d' => d.Kept d' ∧ (d.Refuses kind ∨ ¬ d.CanCreate path) := by
  unfold openTruncated
  rw [ends_bind]
  refine (ends_attempt d).mono ?_ fun kind d' ⟨hk, hr⟩ => ⟨hk, Or.inl hr⟩
  intro _ d₁ hk
  have hcan : d₁.CanCreate path ↔ d.CanCreate path := by
    rw [CanCreate, CanCreate, hk.tree, hk.cwd]
  rw [ends_bind]
  refine (ends_spotToCreate d₁ path).mono ?_ ?_
  · rintro s _ ⟨rfl, hslash, hw⟩
    rw [hk.tree, hk.cwd] at hw
    have hno (hs : ¬ s.IsOpen) : ¬ d.CanCreate path := by
      rintro ⟨_, s', hw', hopen⟩
      exact hs (Except.ok.inj (hw.symm.trans hw') ▸ hopen)
    rcases s with ⟨place, (⟨_, mode, _⟩ | _ | _)⟩ | ⟨folder, name⟩
    · rw [ends_bind]
      refine ends_change fun d₂ ht => ⟨_, hw, trivial, rfl, hk.turned ?_⟩
      rwa [hk.tree] at ht
    · exact ⟨hk, Or.inr (hno id)⟩
    · exact absurd rfl (Tree.leads_of_walk hw).not_link
    · rw [ends_bind]
      refine ends_change fun d₂ ht => ⟨_, hw, trivial, rfl, hk.turned ?_⟩
      rwa [hk.tree] at ht
  · rintro kind _ ⟨rfl, hno⟩
    exact ⟨hk, Or.inr fun hc => hno (hcan.mpr hc)⟩

theorem ends_writeAt (d : Disk) (place : Location) (position : Nat) (data : List UInt8) :
    (writeAt place position data).Ends d
      (fun _ d' => d.Turned (edited d.tree place (overlay · position data)) d')
      fun kind d' => d.Kept d' ∧ d.Refuses kind := by
  unfold writeAt
  rw [ends_bind]
  refine (ends_attempt d).mono (fun _ d₁ hk => ?_) fun _ _ h => h
  refine ends_change fun d₂ ht => hk.turned ?_
  rwa [hk.tree] at ht

theorem ends_setLength (d : Disk) (place : Location) (length : Nat) :
    (Disk.setLength place length).Ends d
      (fun _ d' => length ≤ fileLimit ∧ d.Turned (edited d.tree place (resized · length)) d')
      fun kind d' => d.Kept d' ∧ (d'.Halted kind ∨ fileLimit < length) := by
  unfold Disk.setLength
  rw [ends_bind]
  refine (ends_try d).mono ?_ fun kind d' ⟨hk, hr⟩ => ⟨hk, Or.inl hr⟩
  intro _ d₁ hk
  split
  · rename_i hlong
    exact ⟨hk, Or.inr hlong⟩
  · rename_i hshort
    refine ends_change fun d₂ ht => ⟨Nat.not_lt.mp hshort, hk.turned ?_⟩
    rwa [hk.tree] at ht

/-! ### Entries of folders -/

theorem ends_createTemporary (d : Disk) (folder : String) :
    (createTemporary folder).Ends d
      (fun file d' => d.tree.get? file = none ∧
        d.Turned (d.tree.put file (.file [] privateMode none)) d' ∧
        ∃ place, d.tree.walk d.cwd true folder = .ok (.taken place .folder))
      fun kind d' => d.Kept d' ∧
        (d.Refuses kind ∨ ∀ place, d.tree.walk d.cwd true folder ≠ .ok (.taken place .folder)) := by
  unfold createTemporary
  rw [ends_bind]
  refine (ends_attempt d).mono ?_ fun kind d' ⟨hk, hr⟩ => ⟨hk, Or.inl hr⟩
  intro _ d₁ hk
  rw [ends_bind, ends_node, hk.tree, hk.cwd]
  rcases hw : d.tree.walk d.cwd true folder with kind | ⟨place, (_ | _ | _)⟩ | _
  · exact ⟨hk, Or.inr nofun⟩
  · exact ⟨hk, Or.inr nofun⟩
  · dsimp only
    rw [ends_bind, ends_get, hk.tree, ends_bind]
    refine ends_change fun d₂ ht => ⟨Tree.get?_freshName _ _, hk.turned ?_, place, rfl⟩
    rwa [hk.tree] at ht
  · exact ⟨hk, Or.inr nofun⟩
  · exact ⟨hk, Or.inr nofun⟩

theorem ends_dropTemporary {post : Unit → Disk → Prop}
    (h : ∀ d', d.Turned (d.tree.erase place) d' → post () d') :
    (dropTemporary place).Ends d post fail :=
  ends_change h

theorem ends_setMode {content : List UInt8} {old : Nat} {time : Option Time.Instant}
    (h : d.tree.get? place = some (.file content old time)) (mode : Nat) :
    (setMode place mode).Ends d
      (fun _ d' => d.Turned (d.tree.put place (.file content mode time)) d')
      fun kind d' => d.Kept d' ∧ d.Refuses kind := by
  unfold setMode
  rw [ends_bind]
  refine (ends_attempt d).mono (fun _ d₁ hk => ?_) fun _ _ h => h
  refine ends_change fun d₂ ht => hk.turned ?_
  simpa only [hk.tree, h] using ht

/-- The path does not end in a name for a folder as such. -/
def endsInName (path : String) : Bool :=
  let last := match cutAtLast? (· == '/') path.toList with
    | some (_, _, name) => name
    | none => path.toList
  !(last == ['.'] || last == ['.', '.'])

/-- A file can be moved to the path. -/
def CanReplace (d : Disk) (path : String) : Prop :=
  Path.endsInSlash path = false ∧ endsInName path = true ∧
    ∃ s, d.tree.walk d.cwd false path = .ok s ∧ s.IsOpen

theorem dropEndWhile_of_endsInSlash (h : Path.endsInSlash path = false) :
    dropEndWhile (· == '/') path.toList = path.toList := by
  obtain ⟨dropped, hsplit, hall⟩ := eq_dropEndWhile_append (· == '/') path.toList
  rcases List.eq_nil_or_concat dropped with rfl | ⟨front, c, rfl⟩
  · rw [List.append_nil] at hsplit
    exact hsplit.symm
  · rw [Path.endsInSlash, hsplit, List.concat_eq_append, ← List.append_assoc,
      List.getLast?_concat] at h
    have hc := hall c (by simp)
    simp_all

/-- Without a slash at the end, finding the target of a move is walking to it. -/
theorem spotToReplace_eq (h : Path.endsInSlash path = false) :
    ∃ above, spotToReplace path =
      if endsInName path then spot false path
      else spot true above >>= fun _ => throw .resourceBusy := by
  have hempty : ¬ (!path.isEmpty && path.toList.isEmpty) = true := by simp
  unfold spotToReplace endsInName
  dsimp only
  -- both look at the text behind the last slash, if there is one
  rw [dropEndWhile_of_endsInSlash h, h]
  generalize cutAtLast? (· == '/') path.toList = cut
  rcases cut with _ | ⟨before, c, name⟩
  · refine ⟨".", ?_⟩
    dsimp only
    rw [if_neg hempty, String.ofList_toList]
    by_cases hlast : (path.toList == ['.'] || path.toList == ['.', '.']) = true
    · rw [if_pos hlast, if_neg (by rw [hlast]; decide)]
    · rw [if_neg hlast, if_pos (by rw [eq_false_of_ne_true hlast]; rfl)]
      exact bind_pure _
  · refine ⟨String.ofList before ++ "/.", ?_⟩
    dsimp only
    rw [if_neg hempty, String.ofList_toList]
    by_cases hlast : (name == ['.'] || name == ['.', '.']) = true
    · rw [if_pos hlast, if_neg (by rw [hlast]; decide)]
    · rw [if_neg hlast, if_pos (by rw [eq_false_of_ne_true hlast]; rfl)]
      exact bind_pure _

theorem ends_spotToReplace (d : Disk) (path : String) :
    (spotToReplace path).Ends d
      (fun s d' => d' = d ∧ Path.endsInSlash path = false ∧ endsInName path = true ∧
        d.tree.walk d.cwd false path = .ok s)
      fun _ d' => d' = d ∧
        ¬ (Path.endsInSlash path = false ∧ endsInName path = true ∧
          ∃ s, d.tree.walk d.cwd false path = .ok s) := by
  rcases hslash : Path.endsInSlash path with _ | _
  · obtain ⟨above, heq⟩ := spotToReplace_eq hslash
    rw [heq]
    rcases hname : endsInName path with _ | _
    · rw [if_neg Bool.false_ne_true, ends_bind, ends_spot]
      rcases d.tree.walk d.cwd true above with kind | s
      · exact ⟨rfl, nofun⟩
      · exact ⟨rfl, nofun⟩
    · rw [if_pos rfl, ends_spot]
      rcases hw : d.tree.walk d.cwd false path with kind | s
      · exact ⟨rfl, fun ⟨_, _, _, hc⟩ => nomatch hc⟩
      · exact ⟨rfl, rfl, rfl, rfl⟩
  · -- a slash at the end is refused in every case
    unfold spotToReplace
    dsimp only
    generalize cutAtLast? (· == '/') (dropEndWhile (· == '/') path.toList) = cut
    rcases cut with _ | ⟨before, c, name⟩ <;> dsimp only <;> split
    · rw [ends_bind, ends_spot]
      split <;> exact ⟨rfl, nofun⟩
    · split
      · exact ⟨rfl, nofun⟩
      · rw [ends_bind, ends_spot]
        split <;> exact ⟨rfl, nofun⟩
    · rw [ends_bind, ends_spot]
      split <;> exact ⟨rfl, nofun⟩
    · split
      · exact ⟨rfl, nofun⟩
      · rw [ends_bind, ends_spot]
        split <;> exact ⟨rfl, nofun⟩

/-- **Moving a file** puts it where the path ends, at the link itself if that is one. -/
theorem ends_rename {e : Node} (h : d.tree.get? place = some e) (path : String) :
    (rename place path).Ends d
      (fun _ d' => d.CanReplace path ∧ ∃ s, d.tree.walk d.cwd false path = .ok s ∧ s.IsOpen ∧
        d.Turned ((d.tree.erase place).put s.place e) d')
      fun kind d' => d.Kept d' ∧ (d.Refuses kind ∨ ¬ d.CanReplace path) := by
  unfold rename
  rw [ends_bind]
  refine (ends_attempt d).mono ?_ fun _ _ h => ⟨h.1, Or.inl h.2⟩
  intro _ d₁ hk
  rw [ends_bind]
  refine (ends_spotToReplace d₁ path).mono ?_ ?_
  · rintro s d₂ ⟨rfl, hslash, hname, hw⟩
    rw [hk.tree, hk.cwd] at hw
    have hmove {moved : Tree → Tree} (hs : s.IsOpen)
        (hm : moved d.tree = (d.tree.erase place).put s.place e) :
        (change moved).Ends d₂
          (fun _ d' => d.CanReplace path ∧ ∃ s, d.tree.walk d.cwd false path = .ok s ∧ s.IsOpen ∧
            d.Turned ((d.tree.erase place).put s.place e) d')
          fun kind d' => d.Kept d' ∧ (d.Refuses kind ∨ ¬ d.CanReplace path) := by
      refine ends_change fun d₃ hturn =>
        ⟨⟨hslash, hname, s, hw, hs⟩, s, hw, hs, hk.turned ?_⟩
      rwa [hk.tree, hm] at hturn
    rcases s with ⟨target, (_ | _ | _)⟩ | ⟨folder, name⟩ <;> dsimp only <;> rw [ends_bind]
    · rw [ends_pure]
      exact hmove trivial (by simp only [h, Spot.place])
    · -- a folder is not replaced by a file
      refine ⟨hk, Or.inr ?_⟩
      rintro ⟨_, _, s', hw', hopen⟩
      obtain rfl := Except.ok.inj (hw.symm.trans hw')
      exact hopen
    · rw [ends_pure]
      exact hmove trivial (by simp only [h, Spot.place])
    · rw [ends_pure]
      exact hmove trivial (by simp only [h, Spot.place])
  · rintro kind _ ⟨rfl, hno⟩
    refine ⟨hk, Or.inr ?_⟩
    rintro ⟨hslash, hname, s, hw, _⟩
    exact hno ⟨hslash, hname, s, by rwa [hk.tree, hk.cwd]⟩

/-- A file or link is at the path, and can be removed. -/
def CanRemove (d : Disk) (path : String) : Prop :=
  ∃ place e, d.tree.walk d.cwd false path = .ok (.taken place e) ∧ e ≠ .folder

/-- What a path leads to can be removed, or the link that it ends at. -/
theorem canRemove_of_walk {e : Node} (h : d.tree.walk d.cwd true path = .ok (.taken place e))
    (he : e ≠ .folder) : d.CanRemove path := by
  rcases Tree.walk_follow h with hlast | ⟨link, target, hlink⟩
  · exact ⟨_, _, hlast, he⟩
  · exact ⟨_, _, hlink, nofun⟩

/-- **Removing** takes away what the path ends at: the link itself if that is one. -/
theorem ends_remove (d : Disk) (path : String) :
    (remove path).Ends d
      (fun _ d' => ∃ place e, d.tree.walk d.cwd false path = .ok (.taken place e) ∧ e ≠ .folder ∧
        d.Turned (d.tree.erase place) d')
      fun kind d' => d.Kept d' ∧ (d'.Halted kind ∨ ¬ d.CanRemove path) := by
  unfold remove
  rw [ends_bind]
  refine (ends_try d).mono ?_ fun kind d' ⟨hk, hr⟩ => ⟨hk, Or.inl hr⟩
  intro _ d₁ hk
  have herase (place : Location) (e : Node)
      (hw : d.tree.walk d.cwd false path = .ok (.taken place e)) (he : e ≠ .folder) :
      (change (·.erase place)).Ends d₁
        (fun _ d' => ∃ place e, d.tree.walk d.cwd false path = .ok (.taken place e) ∧
          e ≠ .folder ∧ d.Turned (d.tree.erase place) d')
        fun kind d' => d.Kept d' ∧ (d'.Halted kind ∨ ¬ d.CanRemove path) := by
    refine ends_change fun d₂ ht => ⟨place, e, hw, he, hk.turned ?_⟩
    rwa [hk.tree] at ht
  have hno (hw : ∀ place e, d.tree.walk d.cwd false path = .ok (.taken place e) → e = .folder) :
      ¬ d.CanRemove path := by
    rintro ⟨place, e, hw', he⟩
    exact he (hw place e hw')
  rw [ends_bind, ends_node, hk.tree, hk.cwd]
  rcases hw : d.tree.walk d.cwd false path with kind | ⟨place, (_ | _ | _)⟩ | _
  · exact ⟨hk, Or.inr (hno fun _ _ hw' => nomatch hw.symm.trans hw')⟩
  · have hends := herase place _ hw nofun
    rwa [hw] at hends
  · -- folders are not removed in this way
    refine ⟨hk, Or.inr (hno fun place' e hw' => ?_)⟩
    cases hw.symm.trans hw'
    rfl
  · have hends := herase place _ hw nofun
    rwa [hw] at hends
  · exact ⟨hk, Or.inr (hno fun _ _ hw' => nomatch hw.symm.trans hw')⟩

theorem ends_setModified (d : Disk) (path : String) (time : Time.Instant) :
    (setModified path time).Ends d
      (fun _ d' => ∃ place content mode old,
        d.tree.walk d.cwd true path = .ok (.taken place (.file content mode old)) ∧
          d.Turned (d.tree.put place (.file content mode (some time))) d')
      fun _ d' => d.Kept d' := by
  unfold setModified
  rw [ends_bind]
  refine (ends_attempt d).mono ?_ fun kind d' h => h.1
  intro _ d₁ hk
  rw [ends_bind, ends_node, hk.tree, hk.cwd]
  rcases hw : d.tree.walk d.cwd true path with kind | ⟨place, (⟨content, mode, old⟩ | _ | _)⟩ | _
  · exact hk
  · refine ends_change fun d₂ ht => ⟨place, content, mode, old, rfl, hk.turned ?_⟩
    rwa [hk.tree] at ht
  · exact hk
  · exact hk
  · exact hk

end RangeSync.Disk
