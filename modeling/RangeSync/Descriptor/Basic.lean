import RangeSync.Text.Digits
import RangeSync.Text.Hex
import RangeSync.Text.Quoted
import RangeSync.Time.MailDate
import RangeSync.Url.Fault

/-!
# Descriptors

A descriptor says what a file is: its length, its digest, where it can be fetched and when it was
modified. It is a set of headers, at most one for each key, and the list of all URLs that were
given. Headers are kept in the order of their keys. Two keys have counts as values, all others
text.

The accessors at the end read the headers that the library needs, and refuse what they cannot use.
-/

namespace RangeSync

open Text Time

/-- The value of a header. -/
inductive HeaderValue
  | integer (n : UInt64)
  | text (s : String)
deriving DecidableEq, Repr

namespace HeaderValue

/-- The count, if the value is one. -/
def integer? : HeaderValue → Option UInt64
  | .integer n => some n
  | .text _ => none

/-- The text, if the value is one. -/
def text? : HeaderValue → Option String
  | .integer _ => none
  | .text s => some s

end HeaderValue

/-- A description of a file. -/
structure Descriptor where
  /-- The headers, ordered by key, one for each key. -/
  headers : List (String × HeaderValue)
  /-- All values of the header `URL`, in the order in which they were given. -/
  urls : List String
deriving DecidableEq, Repr

/-- What can be wrong with a descriptor. -/
inductive DescriptorError
  /-- The header section does not end. -/
  | missingTerminator
  /-- The line is not text or has no separator. -/
  | malformedLine (number : Nat) (line : String)
  /-- The value of a key that counts is no count. -/
  | invalidInteger (key value : String)
  /-- The header is needed and missing. -/
  | missingField (key : String)
  | invalidDigest (digest : String)
  | invalidMtime (text : String)
  | unsupportedVersion (version : String)
  | invalidUrl (url : String) (fault : Url.Fault)
deriving DecidableEq, Repr

/-- The wording of an error. -/
def DescriptorError.message : DescriptorError → String
  | .missingTerminator => "Header section has no blank-line terminator before end of stream"
  | .malformedLine number line =>
    "Malformed header line " ++ decimal number ++ ": " ++ quoted line
  | .invalidInteger key value =>
    "Header " ++ key ++ " is not a non-negative integer: " ++ quoted value
  | .missingField key => "Required header " ++ key ++ " is missing"
  | .invalidDigest digest => "SHA-1 digest is not 40 hex characters: " ++ quoted digest
  | .invalidMtime text => "Invalid MTime " ++ quoted text
  | .unsupportedVersion version => "Unsupported zsync stream version " ++ version
  | .invalidUrl url fault => "Invalid URL " ++ quoted url ++ ": " ++ fault.message

namespace Descriptor

/-- No headers. -/
def empty : Descriptor := ⟨[], []⟩

/-- The headers with one more, in the place of an older one with the same key. -/
def insertHeader (key : String) (value : HeaderValue) :
    List (String × HeaderValue) → List (String × HeaderValue)
  | [] => [(key, value)]
  | (k, v) :: rest =>
    if key < k then (key, value) :: (k, v) :: rest
    else if key = k then (key, value) :: rest
    else (k, v) :: insertHeader key value rest

/-- The value of a header. -/
def get? (d : Descriptor) (key : String) : Option HeaderValue :=
  d.headers.lookup key

/-- The text of a header, if its value is text. -/
def text? (d : Descriptor) (key : String) : Option String :=
  (d.get? key).bind HeaderValue.text?

/-- The count of a header, if its value is one. -/
def integer? (d : Descriptor) (key : String) : Option UInt64 :=
  (d.get? key).bind HeaderValue.integer?

/-- The value is a count for these keys. -/
def isCounted (key : String) : Bool :=
  key == "Blocksize" || key == "Length"

/-- The descriptor with one more header. -/
def insert (d : Descriptor) (key value : String) : Except DescriptorError Descriptor :=
  if isCounted key then
    match count? UInt64.size (trim value.toList) with
    | some n => .ok { d with headers := insertHeader key (.integer (UInt64.ofNat n)) d.headers }
    | none => .error (.invalidInteger key value)
  else
    .ok
      { headers := insertHeader key (.text value) d.headers
        urls := if key == "URL" then d.urls ++ [value] else d.urls }

/-- The length of the file. -/
def length (d : Descriptor) : Except DescriptorError UInt64 :=
  match d.integer? "Length" with
  | some n => .ok n
  | none => .error (.missingField "Length")

/-- The size of the blocks that checksums are given for. -/
def blocksize? (d : Descriptor) : Option UInt64 :=
  d.integer? "Blocksize"

/-- Where the file can be fetched; of several URLs the last. -/
def url (d : Descriptor) : Except DescriptorError String :=
  match d.text? "URL" with
  | some u => .ok u
  | none => .error (.missingField "URL")

/-- The text is a digest: forty hexadecimal digits of either case. -/
def isDigest (s : String) : Bool :=
  s.toList.length == 40 && s.toList.all isHexDigit

/-- The digest of the file, as it is written in the descriptor. -/
def digest (d : Descriptor) : Except DescriptorError String :=
  match d.text? "SHA-1" with
  | none => .error (.missingField "SHA-1")
  | some s => if isDigest s then .ok s else .error (.invalidDigest s)

/-- The name of the file. -/
def filename? (d : Descriptor) : Option String :=
  d.text? "Filename"

/-- When the file was modified, if the descriptor says so. -/
def mtime (d : Descriptor) : Except DescriptorError (Option Instant) :=
  match d.text? "MTime" with
  | none => .ok none
  | some s =>
    match MailDate.instant? s with
    | some t => .ok (some t)
    | none => .error (.invalidMtime s)

end Descriptor
end RangeSync
