import RangeSync.Url.Basic
import RangeSync.Url.Segments

/-!
# Reading URLs

A URL is read as browsers read it: blanks and controls around it and line ends inside of it do not
count, a well-known scheme may be followed by any number of slashes of either kind, and what a part
cannot hold is encoded. A text without a scheme is refused, since there is no page that it could be
relative to.
-/

namespace RangeSync.Url

open Text

/-- The text without controls and spaces around it, and without tabs and line ends. -/
def cleaned (s : List Char) : List Char :=
  let isOuter (c : Char) : Bool := c.toNat ≤ 0x20
  (dropEndWhile isOuter (s.dropWhile isOuter)).filter fun c =>
    c != '\t' && c != '\n' && c != '\r'

/-- The character may stand in a scheme. -/
def inScheme (c : Char) : Bool :=
  c.isAlphanum || c == '+' || c == '-' || c == '.'

/-- The scheme in small letters and the text after its colon. -/
def readScheme? (s : List Char) : Option (String × List Char) :=
  match s with
  | [] => none
  | c :: _ =>
    if !c.isAlpha then none
    else
      match s.dropWhile inScheme with
      | ':' :: rest => some (String.ofList (lowered (s.takeWhile inScheme)), rest)
      | _ => none

/-- The character ends an authority. -/
def endsAuthority (isSpecial : Bool) (c : Char) : Bool :=
  c == '/' || c == '?' || c == '#' || (isSpecial && c == '\\')

/-- The user name and password that stand before the last at sign. -/
def readUserInfo (s : List Char) : String × Option String :=
  let encoded (s : List Char) : String := String.ofList (Part.userInfo.encode s)
  match cutAt? (· == ':') s with
  | none => (encoded s, none)
  | some (name, _, []) => (encoded name, none)
  | some (name, _, password) => (encoded name, some (encoded password))

/-- The text of a host and what follows it; a colon inside of brackets belongs to it. -/
def splitHost (isSpecial : Bool) (inBrackets : Bool) : List Char → List Char × List Char
  | [] => ([], [])
  | c :: rest =>
    if (c == ':' && !inBrackets) || endsAuthority isSpecial c then ([], c :: rest)
    else
      let inBrackets := if c == '[' then true else if c == ']' then false else inBrackets
      let (host, after) := splitHost isSpecial inBrackets rest
      (c :: host, after)

/-- The port after its colon, if it is not the usual one, and what follows it. -/
def readPort (usual : Option Nat) (s : List Char) : Except Fault (Option Nat × List Char) :=
  let digits := s.takeWhile isDigit
  let rest := s.dropWhile isDigit
  if 65535 < valueOf digits then .error .invalidPort
  else
    match rest with
    | c :: _ =>
      if endsAuthority true c then .ok (port digits, rest) else .error .invalidPort
    | [] => .ok (port digits, rest)
where
  /-- The port of some digits, unless it is the usual one. -/
  port (digits : List Char) : Option Nat :=
    if digits.isEmpty ∨ usual = some (valueOf digits) then none else some (valueOf digits)

/-- The port and what follows it, if a colon comes next; it has none otherwise. -/
def readPortPart (usual : Option Nat) (s : List Char) : Except Fault (Option Nat × List Char) :=
  match s with
  | ':' :: rest => readPort usual rest
  | _ => .ok (none, s)

/-- The query and the fragment of what follows a path. -/
def readEnd (isSpecial : Bool) (s : List Char) : Option String × Option String :=
  let encoded (part : Part) (s : List Char) : String := String.ofList (part.encode s)
  let queryPart := if isSpecial then Part.specialQuery else Part.query
  match s with
  | '?' :: rest =>
    match cutAt? (· == '#') rest with
    | none => (some (encoded queryPart rest), none)
    | some (query, _, fragment) =>
      (some (encoded queryPart query), some (encoded .fragment fragment))
  | '#' :: rest => (none, some (encoded .fragment rest))
  | _ => (none, none)

/-- The character ends a path. -/
def endsPath (c : Char) : Bool :=
  c == '?' || c == '#'

/-- The text of a path after its first slash, if it has one, which may be a backslash. -/
def afterSlash (isSpecial : Bool) (s : List Char) : List Char :=
  match s with
  | c :: rest => if c == '/' || (isSpecial && c == '\\') then rest else s
  | [] => []

/-- The URL with the path, query and fragment that the rest of the text spells. The path of a
special scheme is never empty. -/
def withPath (u : Url) (isSpecial : Bool) (s : List Char) : Url :=
  let text := s.takeWhile (!endsPath ·)
  let (query, fragment) := readEnd isSpecial (s.dropWhile (!endsPath ·))
  let path :=
    if text.isEmpty && !isSpecial then []
    else (readPath isSpecial false (afterSlash isSpecial text)).1
  { u with path := String.ofList path, query, fragment }

/-- An URL of which only the scheme is known. -/
def ofScheme (scheme : String) : Url :=
  ⟨scheme, false, "", none, none, none, "", none, none⟩

/-- The user information of an authority and the rest after it. An at sign that begins the
authority has to be followed by a host. -/
def readAuthorityUser (isSpecial : Bool) (s : List Char) :
    Except Fault (String × Option String × List Char) :=
  let text := s.takeWhile (!endsAuthority isSpecial ·)
  let after := s.dropWhile (!endsAuthority isSpecial ·)
  match cutAtLast? (· == '@') text with
  | none => .ok ("", none, s)
  | some ([], _, rest) =>
    if rest.isEmpty && !after.isEmpty then .error .emptyHost else .ok ("", none, rest ++ after)
  | some (user, _, rest) =>
    let (username, password) := readUserInfo user
    .ok (username, password, rest ++ after)

/-- The URL of a scheme that is followed by an authority. -/
def readAuthority (scheme : String) (kind : Kind) (s : List Char) : Except Fault Url := do
  let isSpecial := kind.isSpecial
  let usual := match kind with
    | .special port => some port
    | _ => none
  let (username, password, s) ← readAuthorityUser isSpecial s
  let (name, s) := splitHost isSpecial false s
  if name.isEmpty then
    if isSpecial || s.head? == some ':' || !username.isEmpty || password.isSome then
      .error .emptyHost
    else .ok (withPath { ofScheme scheme with hasAuthority := true } isSpecial s)
  else
    let host ← if isSpecial then specialHost name else opaqueHost name
    let (port, s) ← readPortPart usual s
    .ok (withPath
      { ofScheme scheme with hasAuthority := true, username, password, host := some host, port }
      isSpecial s)

/-- The host of a file; the machine itself has none. -/
def fileHost (name : List Char) : Except Fault (Option Host) :=
  if name.isEmpty then .ok none
  else
    match specialHost name with
    | .ok (.domain "localhost") => .ok none
    | .ok host => .ok (some host)
    | .error fault => .error fault

/-- The URL of a file with a host and the text of its path. A path that begins with a disk drive
needs no host. -/
def fileUrl (host : Option Host) (s : List Char) : Url :=
  let text := s.takeWhile (!endsPath ·)
  let (query, fragment) := readEnd true (s.dropWhile (!endsPath ·))
  let (path, hasDrive) := readPath true true (afterSlash true text)
  { ofScheme "file" with
    hasAuthority := true
    host := if hasDrive then none else host
    path := String.ofList path
    query
    fragment }

/-- The character is a slash of either kind. -/
def isSlash (c : Char) : Bool :=
  c == '/' || c == '\\'

/-- The URL of a file. A host follows two slashes, unless it looks like a disk drive. -/
def readFile (s : List Char) : Except Fault Url :=
  match s with
  | a :: b :: rest =>
    if isSlash a && isSlash b then
      let name := rest.takeWhile (!endsAuthority true ·)
      if isDrive name then .ok (fileUrl none rest)
      else
        match fileHost name with
        | .ok host => .ok (fileUrl host (rest.dropWhile (!endsAuthority true ·)))
        | .error fault => .error fault
    else .ok (fileUrl none s)
  | _ => .ok (fileUrl none s)

/-- The URL of a scheme that is not well known. Without an authority, a path that does not begin
with a slash is kept as it is. -/
def readOther (scheme : String) (s : List Char) : Except Fault Url :=
  match s with
  | '/' :: '/' :: rest => readAuthority scheme .other rest
  | '/' :: _ => .ok (withPath (ofScheme scheme) false s)
  | _ =>
    let text := s.takeWhile (!endsPath ·)
    let (query, fragment) := readEnd false (s.dropWhile (!endsPath ·))
    .ok { ofScheme scheme with
      path := String.ofList (Part.opaquePart.encode text)
      query
      fragment }

/-- **Reading a URL.** -/
def read (text : String) : Except Fault Url :=
  match readScheme? (cleaned text.toList) with
  | none => .error .relativeWithoutBase
  | some (scheme, rest) =>
    match kindOf scheme with
    | .special port => readAuthority scheme (.special port) (rest.dropWhile isSlash)
    | .file => readFile rest
    | .other => readOther scheme rest

end RangeSync.Url
