import RangeSync.Text.Blank
import RangeSync.Text.Digits
import RangeSync.Time.Calendar

/-!
# Dates of mail headers

A descriptor gives the modification time in the form of mail headers:
`Tue, 1 Jul 2003 10:52:37 +0200`. The day of the week, the seconds and comments at the end may be
missing; blanks are allowed between most parts and needed between some; old names of time zones
count too. A reader takes the rest of the text and returns what it read with the text after it.
-/

namespace RangeSync.Time.MailDate

open RangeSync.Text

/-- A reader of one part of a date. -/
abbrev Part (α : Type) := List Char → Option (α × List Char)

/-- The number that at least `least` and at most `most` digits spell, as many as there are. -/
def number (least most : Nat) : Part (Nat × Nat) := fun s =>
  let digits := (s.take most).takeWhile isDigit
  if digits.length < least then none
  else some ((valueOf digits, digits.length), s.drop digits.length)

/-- At least one blank, and all blanks after it. -/
def gap : Part Unit := fun s =>
  match s with
  | [] => none
  | c :: rest => if isBlank c then some ((), trimStart rest) else none

/-- The given character. -/
def char (c : Char) : Part Unit := fun s =>
  match s with
  | [] => none
  | d :: rest => if d == c then some ((), rest) else none

/-- The place in `names` of the three letters at the beginning of the text, in any case. -/
def name (names : List String) : Part Nat := fun s =>
  let word := String.ofList (lowered (s.take 3))
  (names.findIdx? (· == word)).map (·, s.drop 3)

/-- The short names of the days of the week. -/
def weekdays : List String := ["mon", "tue", "wed", "thu", "fri", "sat", "sun"]

/-- The short names of the months. -/
def months : List String :=
  ["jan", "feb", "mar", "apr", "may", "jun", "jul", "aug", "sep", "oct", "nov", "dec"]

/-- The year that a number of some digits means. Two digits mean a year from 1950 to 2049, three
digits count from 1900. -/
def yearOf (value digits : Nat) : Nat :=
  if digits = 2 then (if value < 50 then value + 2000 else value + 1900)
  else if digits = 3 then value + 1900
  else value

/-- The hours that a lowercase name of a time zone is ahead of Greenwich. A military letter says
nothing reliable and counts as none. -/
def zoneHours? (name : String) : Option Int :=
  match name with
  | "gmt" | "ut" | "z" => some 0
  | "edt" => some (-4)
  | "est" | "cdt" => some (-5)
  | "cst" | "mdt" => some (-6)
  | "mst" | "pdt" => some (-7)
  | "pst" => some (-8)
  | _ =>
    match name.toList with
    | [c] => if c == 'j' then none else some 0
    | _ => none

/-- The seconds that a time zone is ahead of Greenwich: a name, or a sign with hours and minutes
of two digits each, less than a day in all. -/
def zone : Part Int := fun s =>
  let word := s.takeWhile Char.isAlpha
  if word.isEmpty then do
    let negative ← match s.head? with
      | some '+' => some false
      | some '-' => some true
      | _ => none
    let ((hours, _), s) ← number 2 2 (s.drop 1)
    let ((minutes, _), s) ← number 2 2 s
    if minutes < 60 ∧ hours < 24 then
      let seconds : Int := ((hours * 3600 + minutes * 60 : Nat) : Int)
      some (if negative then -seconds else seconds, s)
    else none
  else
    (zoneHours? (String.ofList (lowered word))).map fun hours =>
      (hours * 3600, s.drop word.length)

/-- The text after the comment that the text is inside of, `depth` brackets deep. A backslash
takes the meaning of the character after it. -/
def closeComment (depth : Nat) : List Char → Option (List Char)
  | [] => none
  | '\\' :: [] => none
  | '\\' :: _ :: rest => closeComment depth rest
  | '(' :: rest => closeComment (depth + 1) rest
  | ')' :: rest => if depth ≤ 1 then some rest else closeComment (depth - 1) rest
  | _ :: rest => closeComment depth rest

/-- The text consists of comments, each with blanks before it. Every comment takes up two
characters at least, so the length of the text bounds their number. -/
def onlyComments : Nat → List Char → Bool
  | _, [] => true
  | 0, _ :: _ => false
  | fuel + 1, s =>
    match trimStart s with
    | '(' :: rest =>
      match closeComment 1 rest with
      | some after => onlyComments fuel after
      | none => false
    | _ => false

/-- The seconds after a colon, if there is one: the seconds and the text after them. -/
def optionalSeconds : Part Nat := fun s =>
  match trimStart s with
  | ':' :: rest => (number 2 2 rest).map fun ((n, _), s) => (n, s)
  | _ => some (0, s)

/-- The greatest year of a date. -/
def lastYear : Nat := 262142

/-- The seconds since 1970 of the first moment after the last year. -/
def endOfTime : Int := dayNumber (lastYear + 1) 1 1 * 86400

/-- The day of the week with its comma, if the text begins with the name of one. -/
def optionalWeekday : Part (Option Nat) := fun s =>
  match name weekdays s with
  | some (day, s) => (char ',' s).map fun ((), s) => (some day, s)
  | none => some (none, s)

/-- **Reading a date**: the seconds since 1970. The date has to exist, the day of the week has to
be right if it is given, and second 60 is the second after second 59. -/
def seconds? (text : List Char) : Option Int := do
  let (weekday?, s) ← optionalWeekday (trimStart text)
  let ((day, _), s) ← number 1 2 (trimStart s)
  let ((), s) ← gap s
  let (month, s) ← name months s
  let ((), s) ← gap s
  let ((value, digits), s) ← number 2 s.length s
  let ((), s) ← gap s
  let ((hour, _), s) ← number 2 2 s
  let ((), s) ← char ':' (trimStart s)
  let ((minute, _), s) ← number 2 2 (trimStart s)
  let (second, s) ← optionalSeconds s
  let ((), s) ← gap s
  let (offset, s) ← zone s
  let year := yearOf value digits
  let days := dayNumber year (month + 1) day
  let local_ := days * 86400 + ((hour * 3600 + minute * 60 + second : Nat) : Int)
  let total := local_ - offset
  if onlyComments s.length s && year ≤ lastYear && isDate year (month + 1) day && hour < 24 &&
      minute < 60 && second ≤ 60 && total < endOfTime + (if second = 60 then 1 else 0) &&
      (weekday?.all (· == weekday days)) then some total
  else none

/-- The moment that a date names, blanks around it dropped. -/
def instant? (text : String) : Option Instant :=
  (seconds? (trim text.toList)).map fun s => ⟨s, 0⟩

end RangeSync.Time.MailDate
