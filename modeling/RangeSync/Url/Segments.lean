import RangeSync.Text.Blank
import RangeSync.Text.Cut
import RangeSync.Url.Percent

/-!
# Paths of URLs

The path of a URL is a list of segments. While it is read, a segment of one dot is passed over and
a segment of two dots removes the segment before it; either may be written with percent signs. A
segment that looks like the letter of a disk drive is never removed, and at the beginning of a file
path it takes its usual form.
-/

namespace RangeSync.Url

open Text

/-- The segment means the place itself. -/
def isDot (s : List Char) : Bool :=
  let s := lowered s
  s == ['.'] || s == ['%', '2', 'e']

/-- The segment means the place above. -/
def isDoubleDot (s : List Char) : Bool :=
  ["..", ".%2e", "%2e.", "%2e%2e"].contains (String.ofList (lowered s))

/-- A letter and a colon or bar: a disk drive. -/
def isDrive (s : List Char) : Bool :=
  match s with
  | [c, d] => c.isAlpha && (d == ':' || d == '|')
  | _ => false

/-- The path above the segments `done`, which are in reverse. -/
def shortened (done : List (List Char)) : List (List Char) :=
  match done with
  | [] => []
  | last :: before => if isDrive last then done else before

/-- What has been read of a path. -/
structure Walk where
  /-- The segments so far, in reverse. -/
  done : List (List Char)
  /-- A disk drive stands at the beginning. -/
  hasDrive : Bool

/-- A segment of a file path that begins with a disk drive and goes on: the drive and the rest. -/
def driveAndMore? (s : List Char) : Option (List Char × List Char) :=
  match s with
  | c :: ':' :: d :: rest => if c.isAlpha then some ([c, ':'], d :: rest) else none
  | _ => none

/-- One more segment, encoded; `isLast` if no slash follows it. -/
def Walk.add (isFile isLast : Bool) (w : Walk) (s : List Char) : Walk :=
  let startsFile := isFile && w.done.isEmpty
  match (if startsFile then driveAndMore? s else none) with
  | some (drive, more) => { w with done := more :: drive :: w.done }
  | none =>
    if isDoubleDot s then
      let above := shortened w.done
      { w with done := if isLast then [] :: above else above }
    else if isDot s then { w with done := if isLast then [] :: w.done else w.done }
    else
      match startsFile && isDrive s, s with
      | true, c :: _ => ⟨[c, ':'] :: w.done, true⟩
      | _, _ => { w with done := s :: w.done }

/-- All segments, encoded, added to what has been read. -/
def Walk.addAll (isFile : Bool) (w : Walk) : List (List Char) → Walk
  | [] => w
  | [s] => w.add isFile true s
  | s :: rest => addAll isFile (w.add isFile false s) rest

/-- The path that the segments make, with a slash before each. A file path does not begin with
empty segments. -/
def Walk.path (isFile : Bool) (w : Walk) : List Char :=
  let whole := joined '/' w.done.reverse
  '/' :: (if isFile then whole.dropWhile (· == '/') else whole)

/-- The path of a text that continues the segments read so far, and whether a disk drive stands at
its beginning. Backslashes count as slashes if `isSpecial`. -/
def Walk.read (w : Walk) (isSpecial isFile : Bool) (s : List Char) : List Char × Bool :=
  let s := if isSpecial then s.map fun c => if c == '\\' then '/' else c else s
  let walk := w.addAll isFile ((fields '/' s).map Part.path.encode)
  (walk.path isFile, walk.hasDrive)

/-- The path of a text after its first slash. -/
def readPath (isSpecial isFile : Bool) (s : List Char) : List Char × Bool :=
  (Walk.mk [] false).read isSpecial isFile s

end RangeSync.Url
