import RangeSync.Idna.Composed
import RangeSync.Idna.Mapping
import RangeSync.Idna.Property
import RangeSync.Idna.Punycode
import RangeSync.Text.Cut

/-!
# Domain names in ASCII

A domain name of any characters is brought into its ASCII form: it is mapped and composed, cut at
its dots, and every label is checked and written in ASCII. A label beyond ASCII must not begin with
a mark, its joiners have to stand where they are needed, and if any label is written from right to
left, all labels have to follow the rule for mixed directions.
-/

namespace RangeSync.Idna

open Text

/-- The ASCII characters that a domain name cannot hold. -/
def isForbidden (c : Char) : Bool :=
  c.toNat ≤ 0x20 || c.toNat == 0x7F ||
    ['%', '#', '/', ':', '<', '>', '?', '@', '[', '\\', ']', '^', '|'].contains c

/-- The beginning of a label that stands for one beyond ASCII. -/
def acePrefix : List Char := ['x', 'n', '-', '-']

/-! ### Joiners -/

/-- The character that keeps letters from joining. -/
def nonJoiner : Char := '\u200c'

/-- The character that makes letters join. -/
def joiner : Char := '\u200d'

/-- The combining class of the marks that suppress a vowel. -/
def viramaClass : Nat := 9

/-- A joiner may stand after the characters `before`, which are in reverse, and before `after`. -/
def joinerFits (c : Char) (before after : List Char) : Bool :=
  (match before with
    | d :: _ => combiningClass d == viramaClass
    | [] => false) ||
  (c == nonJoiner &&
    (match before.dropWhile isTransparent with
      | d :: _ => joinsNext d
      | [] => false) &&
    (match after.dropWhile isTransparent with
      | d :: _ => joinsPrevious d
      | [] => false))

/-- Every joiner of a label may stand where it is; `before` is in reverse. -/
def joinersFit (before : List Char) : List Char → Bool
  | [] => true
  | c :: rest =>
    (if c == nonJoiner || c == joiner then joinerFits c before rest else true) &&
      joinersFit (c :: before) rest

/-! ### Directions -/

/-- The label holds letters or digits that are written from right to left. -/
def isRightward (label : List Char) : Bool :=
  label.any fun c => direction c == .right || direction c == .arabicNumber

/-- The last direction of a label, marks apart. -/
def lastDirection? (label : List Char) : Option Direction :=
  (label.map direction).reverse.find? (· != .nonspacing)

/-- The label follows the rule for names of mixed directions. -/
def directionsFit (label : List Char) : Bool :=
  match label with
  | [] => true
  | c :: _ =>
    let directions := label.map direction
    match direction c with
    | .right =>
      directions.all (· != .left) &&
        !(directions.contains .europeanNumber && directions.contains .arabicNumber) &&
        (match lastDirection? label with
          | some .right | some .europeanNumber | some .arabicNumber => true
          | _ => false)
    | .left =>
      directions.all (fun d => d != .right && d != .arabicNumber) &&
        (match lastDirection? label with
          | some .left | some .europeanNumber => true
          | _ => false)
    | _ => false

/-! ### Labels -/

/-- The label may stand in a name, apart from its directions. -/
def isSound (label : List Char) : Bool :=
  match label with
  | [] => true
  | c :: _ => !isMark c && joinersFit [] label && label.all (!isForbidden ·)

/-- The mapping and the composition leave the label as it is. -/
def isStable (label : List Char) : Bool :=
  label.all isSettled && composed label == label

/-- A label in both forms. -/
structure Label where
  ascii : List Char
  shown : List Char

/-- Both forms of a label that has been mapped and composed. -/
def label? (s : List Char) : Option Label :=
  if !isStable s then none
  else if acePrefix.isPrefixOf s then
    if s.all Punycode.isBasic then
      match Punycode.decode? (s.drop acePrefix.length) with
      | some shown =>
        if !shown.all Punycode.isBasic && isStable shown && isSound shown then some ⟨s, shown⟩
        else none
      | none => none
    else none
  else if s.all Punycode.isBasic then some ⟨s, s⟩
  else if isSound s then (Punycode.encode? s).map fun ascii => ⟨acePrefix ++ ascii, s⟩
  else none

/-- **The ASCII form of a domain name**, if it has one. -/
def toAscii? (name : String) : Option String := do
  let mapped ← name.toList.mapM mapped
  let labels ← (fields '.' (composed mapped.flatten)).mapM label?
  let ascii := joined '.' (labels.map (·.ascii))
  if labels.any (isRightward ·.shown) && !labels.all (directionsFit ·.shown) then none
  else if ascii.any isForbidden then none
  else some (String.ofList ascii)

end RangeSync.Idna
