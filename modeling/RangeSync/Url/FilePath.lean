import RangeSync.Path
import RangeSync.Url.Basic

/-!
# URLs of files

A file URL and an absolute path say the same in two ways: the names of the path are the segments
of the URL, with percent signs where a segment cannot hold a character.
-/

namespace RangeSync.Url

open Text

/-- **The URL of an absolute path.** Idle names are left out; the name `..` is kept. -/
def ofFilePath (path : String) : Url where
  scheme := "file"
  hasAuthority := true
  username := ""
  password := none
  host := none
  port := none
  path :=
    match Path.names path with
    | [] => "/"
    | names => String.join (names.map fun name =>
        "/" ++ String.ofList (Part.segment.encode name.toList))
  query := none
  fragment := none

/-- The bytes end in a letter and a colon or bar, behind at least one more byte. -/
def endsInDrive (bytes : List UInt8) : Bool :=
  match bytes.reverse with
  | mark :: letter :: _ :: _ =>
    (mark == 0x3A || mark == 0x7C) && (Char.ofNat letter.toNat).isAlpha
  | _ => false

/-- **The path of a file URL**, as bytes; a URL with a host has none. A disk drive at the end is a
folder, so a slash follows it. -/
def toFilePath? (u : Url) : Option (List UInt8) :=
  if u.host.isSome then none
  else
    let bytes := percentDecoded u.path.toList
    some (if endsInDrive bytes then bytes ++ [0x2F] else bytes)

end RangeSync.Url
