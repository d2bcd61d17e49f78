import RangeSync.Disk.Kind
import RangeSync.Disk.Tree
import RangeSync.Path

/-!
# Finding the place of a path

A path is walked from the root or from the working directory, name by name. Every name but the last
has to lead to a folder, links are followed, and the last name may be missing. How many links are
followed in one walk is limited, so that links in a circle are found out.
-/

namespace RangeSync

open Text

/-- Where a path leads. -/
inductive Spot
  /-- To an entry. -/
  | taken (place : Location) (entry : Node)
  /-- To a name that is missing in a folder. -/
  | vacant (folder : Location) (name : String)
deriving DecidableEq, Repr

namespace Walk

/-- How many links a walk follows. -/
def linkLimit : Nat := 40

/-- How many bytes a name has at most. -/
def nameLimit : Nat := 255

/-- How many bytes a path has at most. -/
def pathLimit : Nat := 4095

/-- The steps of a path. A slash at the end is a step to the place itself, which has to be a
folder then. -/
def steps (path : String) : List String :=
  let names := ((fields '/' path.toList).filter (!·.isEmpty)).map String.ofList
  if Path.endsInSlash path then names ++ ["."] else names

/-- The place where a path begins. -/
def start (cwd : Location) (path : String) : Location :=
  if Path.isAbsolute path then [] else cwd

/-- The walk from a folder. `links` more links may be followed; the last one is followed only if
`followLast`. -/
def go (t : Tree) (followLast : Bool) (links : Nat) (here : Location) (path : List String) :
    Except IoKind Spot :=
  match path with
  | [] => .ok (.taken here .folder)
  | name :: rest =>
    if name = "." then go t followLast links here rest
    else if name = ".." then go t followLast links here.dropLast rest
    else if nameLimit < name.utf8ByteSize then .error .invalidFilename
    else
      match t.get? (here ++ [name]) with
      | none => if rest = [] then .ok (.vacant here name) else .error .notFound
      | some .folder => go t followLast links (here ++ [name]) rest
      | some (.file content mode modified) =>
        if rest = [] then .ok (.taken (here ++ [name]) (.file content mode modified))
        else .error .notADirectory
      | some (.link target) =>
        if rest = [] ∧ !followLast then .ok (.taken (here ++ [name]) (.link target))
        else
          match links with
          | 0 => .error .filesystemLoop
          | links + 1 =>
            if target.isEmpty then .error .notFound
            else go t followLast links (start here target) (steps target ++ rest)
termination_by (links, path.length)

end Walk

/-- **The place of a path**, seen from the working directory. -/
def Tree.walk (t : Tree) (cwd : Location) (followLast : Bool) (path : String) :
    Except IoKind Spot :=
  if path.toList.contains '\x00' then .error .invalidInput
  else if path.isEmpty then .error .notFound
  else if Walk.pathLimit < path.utf8ByteSize then .error .invalidFilename
  else Walk.go t followLast Walk.linkLimit (Walk.start cwd path) (Walk.steps path)

/-- The path that names a place. -/
def Location.toPath (place : Location) : String :=
  match place with
  | [] => "/"
  | _ => String.join (place.map ("/" ++ ·))

end RangeSync
