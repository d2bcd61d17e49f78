import RangeSync.ByteSize
import RangeSync.Log
import RangeSync.Numeric.Fixed
import RangeSync.Settings.Policy
import RangeSync.Time.Span

/-!
# Values of settings

A setting has a type, and each type reads a value from the text of a variable and prints it in log
lines. `Setting.resolve` decides what a setting is: the value that its variable spells, or the
default if the variable is missing or spells none, and says in the log which it was.
-/

namespace RangeSync

open Text Numeric Time

/-- A type that a setting can have. -/
class Setting (α : Type) where
  /-- The value that a text spells. -/
  read? : String → Option α
  /-- The value in a log line. -/
  label : α → String

namespace Setting

/-- The text without the blanks around it, as characters. -/
def body (text : String) : List Char :=
  trim text.toList

instance : Setting UInt64 where
  read? text := (count? UInt64.size (body text)).map UInt64.ofNat
  label n := decimal n.toNat

instance : Setting UInt32 where
  read? text := (count? UInt32.size (body text)).map UInt32.ofNat
  label n := decimal n.toNat

instance : Setting Int64 where
  read? text := (signed? 0x8000000000000000 (body text)).map Int64.ofInt
  label n := Decimal.signedText n.toInt

instance : Setting Binary64 where
  read? text := Binary64.read? (body text)
  label := Binary64.toText

instance : Setting String where
  read? text := some (trimmed text)
  label := quoted

instance : Setting ByteSize where
  read? text := ByteSize.read? (trimmed text)
  label := ByteSize.toText

instance : Setting Span where
  read? := Span.read?
  label := Span.toText

instance : Setting IntegrityPolicy where
  read? := IntegrityPolicy.read?
  label := IntegrityPolicy.label

/-- The five spellings of each truth value, in any case. -/
def readBool? (text : String) : Option Bool :=
  match String.ofList (lowered (body text)) with
  | "1" | "true" | "yes" | "y" | "on" => some true
  | "0" | "false" | "no" | "n" | "off" => some false
  | _ => none

instance : Setting Bool where
  read? := readBool?
  label b := if b then "true" else "false"

/-- An optional setting is given by a value of its type; no text spells that it is missing. -/
instance {α : Type} [Setting α] : Setting (Option α) where
  read? text := (read? text).map some
  label
    | none => "None"
    | some value => "Some(" ++ label value ++ ")"

variable {α : Type} [Setting α]

/-- The log line of a setting whose variable is missing. -/
def defaultEntry (name : String) (value : α) : Entry :=
  ⟨.debug, "Config: " ++ name ++ " = " ++ label value ++ " (default)", []⟩

/-- The log line of a setting whose variable spells a value. -/
def givenEntry (name : String) (value : α) : Entry :=
  ⟨.info, "Config: " ++ name ++ " = " ++ label value ++ " (user set)", []⟩

/-- The log line of a setting whose variable spells no value. -/
def rejectedEntry (name text : String) (value : α) : Entry :=
  ⟨.warning, "Config value " ++ quoted text ++ " for " ++ name ++
    " could not be parsed; using default " ++ label value ++ ".", []⟩

/-- **What a setting is**, given the text of its variable, with the line that says so. -/
def resolve (name : String) (given : Option String) (default : α) : α × Entry :=
  match given with
  | none => (default, defaultEntry name default)
  | some text =>
    match read? text with
    | some value => (value, givenEntry name value)
    | none => (default, rejectedEntry name text default)

end Setting
end RangeSync
