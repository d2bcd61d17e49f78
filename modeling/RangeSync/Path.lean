import RangeSync.Text.Cut

/-!
# Paths as text

A path names a place in the file tree by the names of the folders on the way, with slashes between
them. Repeated slashes and the name `.` say nothing; the name `..` is kept, because what it means
depends on the links of the tree. Paths that a user types may begin with `~` for the home
directory, and `absolute` makes a path independent of the working directory.
-/

namespace RangeSync.Path

open Text

/-- The separators that may follow `~`. -/
def isSeparator (c : Char) : Bool :=
  c == '/' || c == '\\'

/-- The path begins at the root. -/
def isAbsolute (path : String) : Bool :=
  path.toList.head? == some '/'

/-- The path ends with a slash. -/
def endsInSlash (path : String) : Bool :=
  path.toList.getLast? == some '/'

/-- The segment says nothing about the place. -/
def isIdle (segment : List Char) : Bool :=
  segment.isEmpty || segment == ['.']

/-- The names on the way, without the idle ones. -/
def names (path : String) : List String :=
  ((fields '/' path.toList).filter (!isIdle ·)).map String.ofList

/-- The path ends in the name of a file or folder, and not above it or at the root. -/
def hasName (path : String) : Bool :=
  match (names path).getLast? with
  | some name => name != ".."
  | none => false

/-- Put a name behind a path; an absolute name replaces the path. -/
def join (path name : String) : String :=
  if isAbsolute name then name
  else if path.isEmpty || endsInSlash path then path ++ name
  else path ++ "/" ++ name

/-- The root that an absolute path begins with: two slashes and no third are kept apart from one. -/
def rootOf (path : String) : String :=
  match path.toList with
  | ['/', '/'] => "//"
  | '/' :: '/' :: c :: _ => if c == '/' then "/" else "//"
  | _ => "/"

/-- **The absolute form of a path**: seen from the working directory `cwd`, without idle segments.
A slash at the end stays, because it says that the place is a folder. The empty path names
nothing and stays empty. -/
def absolute (cwd path : String) : String :=
  if path.isEmpty then path
  else
    let base := if isAbsolute path then rootOf path else cwd
    let whole := (names path).foldl join base
    if endsInSlash path then join whole "" else whole

/-- The path with `~` at its beginning replaced by the home directory, if nothing or a separator
follows it. -/
def expanded (home path : String) : String :=
  match path.toList with
  | '~' :: rest =>
    match rest with
    | [] => join home ""
    | c :: _ =>
      if isSeparator c then join home (String.ofList (rest.dropWhile isSeparator)) else path
  | _ => path

/-- The absolute path that a user means. -/
def normalized (home cwd path : String) : String :=
  absolute cwd (expanded home path)

/-- The segments without idle ones at the end; the first segment stays, since it is the root or the
working directory. -/
def withoutIdleEnd : List (List Char) → List (List Char)
  | [] => []
  | first :: rest => first :: (rest.reverse.dropWhile isIdle).reverse

/-- **The folder that a path lies in**, as it is written in the path; the working directory `.` for
a path that is a bare name, and for one that has no name at all. -/
def parentOrHere (path : String) : String :=
  match withoutIdleEnd (fields '/' path.toList) with
  | [] => "."
  | [_] => "."
  | segments =>
    match withoutIdleEnd segments.dropLast with
    | [[]] => "/"
    | kept => String.ofList (joined '/' kept)

end RangeSync.Path
