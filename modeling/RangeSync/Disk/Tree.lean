import RangeSync.Time.Calendar

/-!
# File trees

A file tree gives nodes to places. A place is the list of names from the root; a node is a file
with its bytes, permission bits and modification time, a folder, or a symbolic link. There are no
hard links: a file is in one place.
-/

namespace RangeSync

/-- The names from the root to a place. -/
abbrev Location := List String

/-- What is at a place. -/
inductive Node
  /-- The modification time is missing if the file was written last and not dated since. -/
  | file (content : List UInt8) (mode : Nat) (modified : Option Time.Instant)
  | folder
  | link (target : String)
deriving DecidableEq, Repr

/-- A file system: at most one node for each place. -/
structure Tree where
  nodes : List (Location × Node)
deriving DecidableEq, Repr

namespace Tree

/-- The entry at a place. The root is a folder. -/
def get? (t : Tree) (place : Location) : Option Node :=
  match place with
  | [] => some .folder
  | _ => t.nodes.lookup place

/-- Put an entry at a place. -/
def put (t : Tree) (place : Location) (e : Node) : Tree :=
  ⟨go t.nodes⟩
where
  /-- The entries with the one at the place replaced, or added at the end. -/
  go : List (Location × Node) → List (Location × Node)
    | [] => [(place, e)]
    | (p, old) :: rest => if p = place then (place, e) :: rest else (p, old) :: go rest

/-- Remove the entry at a place. -/
def erase (t : Tree) (place : Location) : Tree :=
  ⟨t.nodes.filter (·.1 != place)⟩

/-- The bytes of the file at a place. -/
def bytes? (t : Tree) (place : Location) : Option (List UInt8) :=
  match t.get? place with
  | some (.file content _ _) => some content
  | _ => none

/-- The names in a folder. -/
def namesIn (t : Tree) (folder : Location) : List String :=
  t.nodes.filterMap fun (p, _) =>
    if p.dropLast = folder then p.getLast? else none

/-- A name that no entry has: longer than every name in the folder. -/
def freshName (t : Tree) (folder : Location) : String :=
  let longest := ((t.namesIn folder).map String.length).foldl max 0
  ".tmp" ++ String.ofList (List.replicate longest 'x')

theorem lookup_go_self (place : Location) (e : Node) (l : List (Location × Node)) :
    (put.go place e l).lookup place = some e := by
  induction l with
  | nil => simp [put.go]
  | cons head rest ih =>
    obtain ⟨p, old⟩ := head
    by_cases h : p = place
    · simp [put.go, h]
    · simp [put.go, h, List.lookup_cons, ih, beq_false_of_ne (Ne.symm h)]

theorem lookup_go_of_ne {place other : Location} (e : Node) (h : other ≠ place)
    (l : List (Location × Node)) :
    (put.go place e l).lookup other = l.lookup other := by
  induction l with
  | nil => simp [put.go, List.lookup_cons, beq_false_of_ne h]
  | cons head rest ih =>
    obtain ⟨p, old⟩ := head
    by_cases hp : p = place
    · subst hp
      simp [put.go, List.lookup_cons, beq_false_of_ne h]
    · by_cases ho : other = p
      · subst ho
        simp [put.go, hp]
      · simp [put.go, hp, List.lookup_cons, ih, beq_false_of_ne ho]

/-- An entry that was put is there. -/
theorem get?_put_self (t : Tree) {place : Location} (e : Node) (h : place ≠ []) :
    (t.put place e).get? place = some e := by
  cases place with
  | nil => exact absurd rfl h
  | cons a rest => exact lookup_go_self _ _ _

/-- Every other entry is as before. -/
theorem get?_put_of_ne (t : Tree) {place other : Location} (e : Node) (h : other ≠ place) :
    (t.put place e).get? other = t.get? other := by
  cases other with
  | nil => rfl
  | cons a rest => exact lookup_go_of_ne e h _

end Tree
end RangeSync
