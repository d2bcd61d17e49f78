import RangeSync.Url.Host

/-!
# URLs

A URL in its parts, every part in its encoded form, and the text that the parts make.
-/

namespace RangeSync

open Text Url

/-- A URL. -/
structure Url where
  /-- In small letters. -/
  scheme : String
  /-- Two slashes come after the scheme. -/
  hasAuthority : Bool
  username : String
  /-- Not empty if there is one. -/
  password : Option String
  host : Option Host
  /-- Missing if it is the usual one of the scheme. -/
  port : Option Nat
  path : String
  query : Option String
  fragment : Option String
deriving DecidableEq, Repr

/-- How a scheme is treated. -/
inductive Url.Kind
  /-- A well-known scheme of the net, with its usual port. -/
  | special (port : Nat)
  | file
  | other
deriving DecidableEq, Repr

/-- The kind of a scheme. -/
def Url.kindOf (scheme : String) : Url.Kind :=
  match scheme with
  | "http" | "ws" => .special 80
  | "https" | "wss" => .special 443
  | "ftp" => .special 21
  | "file" => .file
  | _ => .other

/-- A backslash counts as a slash, and queries encode more characters. -/
def Url.Kind.isSpecial : Url.Kind → Bool
  | .other => false
  | _ => true

namespace Url

/-- The user name and password with their separators. -/
def userInfoText (u : Url) : String :=
  if u.username.isEmpty && u.password.isNone then ""
  else u.username ++ (match u.password with | some p => ":" ++ p | none => "") ++ "@"

/-- The path is no sequence of names, since it does not begin with a slash. -/
def hasOpaquePath (u : Url) : Bool :=
  !u.hasAuthority && u.path.toList.head? != some '/'

/-- The host and the port. -/
def hostText (u : Url) : String :=
  (match u.host with | some h => h.toText | none => "") ++
    (match u.port with | some p => ":" ++ decimal p | none => "")

/-- What stands between the scheme and the path. Without an authority, a path that begins with two
slashes is kept apart from one by a point. -/
def authorityText (u : Url) : String :=
  if u.hasAuthority then "//" ++ u.userInfoText ++ u.hostText
  else if ['/', '/'].isPrefixOf u.path.toList then "/."
  else ""

/-- A part with the character in front of it. -/
def partText (mark : String) : Option String → String
  | some s => mark ++ s
  | none => ""

/-- The text of a URL. -/
def toText (u : Url) : String :=
  u.scheme ++ ":" ++ u.authorityText ++ u.path ++ partText "?" u.query ++ partText "#" u.fragment

/-- The URL of a page: no query and no fragment. Spaces at the end of an opaque path go with
them. -/
def page (u : Url) : Url :=
  let bare := { u with query := none, fragment := none }
  if bare.hasOpaquePath then
    { bare with path := String.ofList (dropEndWhile (· == ' ') bare.path.toList) }
  else bare

/-- The URL without user name and password. -/
def withoutUser (u : Url) : Url :=
  { u with username := "", password := none }

end Url
end RangeSync
