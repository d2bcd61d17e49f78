import RangeSync.Disk.Basic

/-!
# Trees that differ in one place

Whatever a run does to a file tree it does in one place at a time: it fills the file of its output,
it puts a temporary file where nothing was, it moves a file to a path. So trees are compared place
by place, through `RangeSync.Tree.get?`, and what has to be said of a run is which places it leaves
alone.

* `RangeSync.Tree.EditOf` – the trees agree, but for the bytes of one file;
* `RangeSync.Tree.Beside` – the trees agree, but for a place where nothing was;
* `RangeSync.Tree.SameOff` – the trees agree off one place, whatever is there;
* `RangeSync.Tree.Keeps` – whatever is in the first tree is in the second one.
-/

namespace RangeSync.Tree

open Text

variable {t t' t'' : Tree} {place other : Location} {e : Node}

/-! ### Entries put and removed -/

theorem ne_nil_of_get? (h : t.get? place ≠ some .folder) : place ≠ [] := by
  rintro rfl
  exact h rfl

theorem ne_nil_of_file {content : List UInt8} {mode : Nat} {time : Option Time.Instant}
    (h : t.get? place = some (.file content mode time)) : place ≠ [] :=
  ne_nil_of_get? fun hc => by
    rw [h] at hc
    cases hc

theorem ne_nil_of_none (h : t.get? place = none) : place ≠ [] :=
  ne_nil_of_get? fun hc => by
    rw [h] at hc
    cases hc

/-- Every place but the root has a folder and a name. -/
theorem exists_concat (h : place ≠ []) : ∃ folder name, place = folder ++ [name] :=
  ⟨_, _, (List.dropLast_concat_getLast h).symm⟩

theorem lookup_filter_ne (l : List (Location × Node)) :
    (l.filter (·.1 != place)).lookup other = if other = place then none else l.lookup other := by
  induction l with
  | nil => simp
  | cons head rest ih =>
    obtain ⟨p, node⟩ := head
    by_cases hp : p = place
    · subst hp
      by_cases ho : other = p
      · rw [if_pos ho] at ih
        simpa [ho] using ih
      · simp [ih, ho, List.lookup_cons, beq_false_of_ne ho]
    · by_cases ho : other = p
      · subst ho
        simp [hp]
      · simp [hp, ih, List.lookup_cons, beq_false_of_ne ho]

/-- What was removed is gone. -/
theorem get?_erase_self (h : place ≠ []) : (t.erase place).get? place = none := by
  cases place with
  | nil => exact absurd rfl h
  | cons a rest =>
    change (t.nodes.filter (·.1 != a :: rest)).lookup (a :: rest) = none
    rw [lookup_filter_ne, if_pos rfl]

/-- Every other entry is as before. -/
theorem get?_erase_of_ne (h : other ≠ place) : (t.erase place).get? other = t.get? other := by
  cases other with
  | nil => rfl
  | cons a rest =>
    change (t.nodes.filter (·.1 != place)).lookup (a :: rest) = t.nodes.lookup (a :: rest)
    rw [lookup_filter_ne, if_neg h]

theorem foldl_max_le {l : List Nat} {n m : Nat} (h : m ≤ n ∨ m ∈ l) : m ≤ l.foldl max n := by
  induction l generalizing n with
  | nil => exact h.elim id fun hc => absurd hc (List.not_mem_nil)
  | cons a rest ih =>
    rw [List.foldl_cons]
    apply ih
    rcases h with h | h
    · exact Or.inl (by omega)
    · rcases List.mem_cons.mp h with rfl | h
      · exact Or.inl (by omega)
      · exact Or.inr h

/-- A name in a folder is not longer than the longest one. -/
theorem mem_namesIn {name : String} (h : t.get? (place ++ [name]) ≠ none) :
    name ∈ t.namesIn place := by
  have hlookup : t.nodes.lookup (place ++ [name]) ≠ none := by
    cases place with
    | nil => exact h
    | cons a rest => exact h
  have hmem : ∃ node, (place ++ [name], node) ∈ t.nodes := by
    rcases hl : t.nodes.lookup (place ++ [name]) with _ | node
    · exact absurd hl hlookup
    · exact ⟨node, List.lookup_eq_some_iff.mp hl |>.elim fun l₁ ⟨l₂, hs, _⟩ => by simp [hs]⟩
  obtain ⟨node, hmem⟩ := hmem
  refine List.mem_filterMap.mpr ⟨_, hmem, ?_⟩
  simp

/-- **A fresh name is fresh**: nothing in the folder has it, since it is longer than all names
there. -/
theorem get?_freshName (t : Tree) (folder : Location) :
    t.get? (folder ++ [t.freshName folder]) = none := by
  refine Classical.byContradiction fun h => ?_
  have hname := mem_namesIn h
  have hle : (t.freshName folder).length ≤
      ((t.namesIn folder).map String.length).foldl max 0 :=
    foldl_max_le (Or.inr (List.mem_map.mpr ⟨_, hname, rfl⟩))
  have hlen : (t.freshName folder).length =
      4 + ((t.namesIn folder).map String.length).foldl max 0 := by
    have htmp : ".tmp".length = 4 := by decide
    rw [freshName, String.length_append, htmp, String.length_ofList, List.length_replicate]
  omega

/-! ### Trees that agree off a place -/

/-- The trees agree off a place. -/
def SameOff (place : Location) (t t' : Tree) : Prop :=
  ∀ other, other ≠ place → t'.get? other = t.get? other

/-- The trees agree, but for a place where nothing was. -/
def Beside (place : Location) (t t' : Tree) : Prop :=
  t.get? place = none ∧ SameOff place t t'

/-- The trees agree everywhere. -/
def Same (t t' : Tree) : Prop :=
  ∀ place, t'.get? place = t.get? place

theorem SameOff.refl (place : Location) (t : Tree) : SameOff place t t :=
  fun _ _ => rfl

theorem SameOff.trans (h : SameOff place t t') (h' : SameOff place t' t'') :
    SameOff place t t'' :=
  fun other ho => (h' other ho).trans (h other ho)

theorem sameOff_put (t : Tree) (place : Location) (e : Node) : SameOff place t (t.put place e) :=
  fun _ ho => get?_put_of_ne t e ho

theorem sameOff_erase (t : Tree) (place : Location) : SameOff place t (t.erase place) :=
  fun _ ho => get?_erase_of_ne ho

theorem Same.refl (t : Tree) : Same t t :=
  fun _ => rfl

theorem Same.trans (h : Same t t') (h' : Same t' t'') : Same t t'' :=
  fun place => (h' place).trans (h place)

/-- What was put beside a tree and is removed leaves no trace. -/
theorem Beside.same_erase (h : Beside place t t') : Same t (t'.erase place) := by
  intro other
  by_cases ho : other = place
  · rw [ho, get?_erase_self (ne_nil_of_none h.1), h.1]
  · rw [get?_erase_of_ne ho, h.2 other ho]

theorem Beside.put (h : Beside place t t') (e : Node) : Beside place t (t'.put place e) :=
  ⟨h.1, h.2.trans (sameOff_put t' place e)⟩

/-- Every entry is still there. -/
def Keeps (t t' : Tree) : Prop :=
  ∀ place e, t.get? place = some e → t'.get? place = some e

theorem Keeps.trans (h : Keeps t t') (h' : Keeps t' t'') : Keeps t t'' :=
  fun place e he => h' place e (h place e he)

/-- With the entry that was erased there is one more. -/
theorem keeps_erase (h : place ≠ []) : Keeps (t.erase place) t := by
  intro other e he
  by_cases ho : other = place
  · rw [ho, get?_erase_self h] at he
    cases he
  · rwa [get?_erase_of_ne ho] at he

theorem Same.keeps (h : Same t t') : Keeps t t' :=
  fun place _ he => (h place).trans he

/-- Every entry of a tree is still there in one beside it. -/
theorem Beside.keeps (h : Beside place t t') : Keeps t t' := by
  intro other e ho
  refine (h.2 other ?_).trans ho
  rintro rfl
  rw [h.1] at ho
  cases ho

/-! ### Edits of one file -/

/-- **The trees agree, but for the bytes of the file at a site**; without a site they agree
everywhere. The file keeps its permission bits. -/
structure EditOf (site : Option Location) (t t' : Tree) : Prop where
  rest : ∀ place, site ≠ some place → t'.get? place = t.get? place
  file : ∀ place content mode time, site = some place →
    t.get? place = some (.file content mode time) →
    ∃ content' time', t'.get? place = some (.file content' mode time')

variable {site : Option Location}

theorem EditOf.refl (site : Option Location) (t : Tree) : EditOf site t t :=
  ⟨fun _ _ => rfl, fun _ content _ time _ h => ⟨content, time, h⟩⟩

theorem EditOf.trans (h : EditOf site t t') (h' : EditOf site t' t'') : EditOf site t t'' := by
  refine ⟨fun place hp => (h'.rest place hp).trans (h.rest place hp), ?_⟩
  intro place content mode time hp hf
  obtain ⟨content', time', hf'⟩ := h.file place content mode time hp hf
  exact h'.file place content' mode time' hp hf'

theorem EditOf.same (h : EditOf none t t') : Same t t' :=
  fun place => h.rest place nofun

theorem EditOf.sameOff (h : EditOf (some place) t t') : SameOff place t t' :=
  fun other ho => h.rest other fun hc => ho (Option.some.inj hc).symm

theorem edited_eq {content : List UInt8} {mode : Nat} {time : Option Time.Instant}
    (h : t.get? place = some (.file content mode time)) (f : List UInt8 → List UInt8) :
    Disk.edited t place f = t.put place (.file (f content) mode none) := by
  rw [Disk.edited, h]

/-- The bytes of a file after it was edited. -/
theorem get?_edited {content : List UInt8} {mode : Nat} {time : Option Time.Instant}
    (h : t.get? place = some (.file content mode time)) (f : List UInt8 → List UInt8) :
    (Disk.edited t place f).get? place = some (.file (f content) mode none) := by
  rw [edited_eq h]
  exact get?_put_self t _ (ne_nil_of_file h)

/-- An edit is an edit. -/
theorem editOf_edited (t : Tree) (place : Location) (f : List UInt8 → List UInt8) :
    EditOf (some place) t (Disk.edited t place f) := by
  refine ⟨fun other ho => ?_, ?_⟩
  · have hne : other ≠ place := fun hc => ho (hc ▸ rfl)
    unfold Disk.edited
    split
    · exact get?_put_of_ne t _ hne
    · rfl
  · rintro _ content mode time ⟨⟩ hf
    exact ⟨f content, none, get?_edited hf f⟩

theorem bytes?_eq {content : List UInt8} {mode : Nat} {time : Option Time.Instant}
    (h : t.get? place = some (.file content mode time)) : t.bytes? place = some content := by
  rw [bytes?, h]

theorem bytes?_congr (h : t'.get? place = t.get? place) : t'.bytes? place = t.bytes? place := by
  rw [bytes?, bytes?, h]

end RangeSync.Tree
