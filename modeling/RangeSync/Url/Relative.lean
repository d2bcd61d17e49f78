import RangeSync.Url.Reader

/-!
# References

A reference is a text that is read in view of a URL: it may leave out everything that it shares
with it, from the scheme on. Only URLs of the well-known schemes are looked from here, since these
are the ones that servers answer for.
-/

namespace RangeSync.Url

open Text

/-- The URL with the path, query and fragment that a text spells, where the path continues the
segments `above`. -/
def withPathBelow (u : Url) (above : List (List Char)) (s : List Char) : Url :=
  let text := s.takeWhile (!endsPath ·)
  let (query, fragment) := readEnd true (s.dropWhile (!endsPath ·))
  let path := ((Walk.mk above.reverse false).read true false text).1
  { u with path := String.ofList path, query, fragment }

/-- The segments of the folder that the path of a URL lies in. -/
def folder (u : Url) : List (List Char) :=
  (fields '/' (afterSlash false u.path.toList)).dropLast

/-- What two or more slashes are followed by: the text after the first two, or after all of them if
one of the two is a backslash. -/
def afterSlashes (s : List Char) : List Char :=
  match s with
  | '/' :: '/' :: rest => rest
  | _ => s.dropWhile isSlash

/-- A reference without a scheme, seen from `base`. -/
def below (base : Url) (s : List Char) : Except Fault Url :=
  match s with
  | [] => .ok { base with fragment := none }
  | c :: rest =>
    if c == '?' then
      let (query, fragment) := readEnd true s
      .ok { base with query, fragment }
    else if c == '#' then .ok { base with fragment := (readEnd true s).2 }
    else if isSlash c then
      if (rest.head?.map isSlash).getD false then
        readAuthority base.scheme (kindOf base.scheme) (afterSlashes s)
      else .ok (withPathBelow base [] rest)
    else .ok (withPathBelow base base.folder s)

/-- **The URL that a reference means**, seen from the URL `base` of a well-known scheme. A reference
that names the same scheme again is still one without an authority unless two slashes follow. -/
def join (base : Url) (reference : String) : Except Fault Url :=
  let s := cleaned reference.toList
  match readScheme? s with
  | none => below base s
  | some (scheme, rest) =>
    if scheme = base.scheme ∧ (rest.takeWhile isSlash).length < 2 then below base rest
    else read reference

end RangeSync.Url
