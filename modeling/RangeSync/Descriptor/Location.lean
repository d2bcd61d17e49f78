import RangeSync.Descriptor.Basic
import RangeSync.Url.Reader

/-!
# Where a descriptor points to

The URL of a descriptor is often a bare name, meant relative to the place of the descriptor itself.
A URL with a host is used as it is. Anything else is taken as a path and put behind the folder of
the descriptor, even if it begins with a slash, so the host of the descriptor is never left.
-/

namespace RangeSync.Descriptor

open Text

/-- What a header URL says about the place of a file. -/
inductive Target
  /-- The whole URL. -/
  | absolute (url : Url)
  /-- A path behind the folder of the descriptor. -/
  | relative (path : String)
deriving DecidableEq, Repr

/-- What a header URL says. A text without a scheme is a path up to its query or fragment. -/
def targetOf (header : String) : Except DescriptorError Target :=
  match Url.read header with
  | .ok url => if url.host.isSome then .ok (.absolute url) else .ok (.relative url.path)
  | .error .relativeWithoutBase =>
    .ok (.relative (String.ofList (header.toList.takeWhile fun c => c != '?' && c != '#')))
  | .error fault => .error (.invalidUrl header fault)

/-- The text of a URL up to its last slash, or all of it. -/
def folderText (url : Url) : String :=
  match cutAtLast? (· == '/') url.toText.toList with
  | some (before, _, _) => String.ofList before
  | none => url.toText

/-- **The place of a file**, given the URL of its descriptor and the URL in the descriptor. -/
def resolve (metadata header : String) : Except DescriptorError Url := do
  match ← targetOf header with
  | .absolute url => .ok url
  | .relative path =>
    match Url.read metadata with
    | .error fault => .error (.invalidUrl metadata fault)
    | .ok base =>
      let whole := folderText base.page ++ "/" ++ path
      match Url.read whole with
      | .ok url => .ok url
      | .error fault => .error (.invalidUrl whole fault)

end RangeSync.Descriptor
