import RangeSync.Text.Hex
import RangeSync.Text.Utf8

/-!
# Percent encoding

A URL shows bytes that it cannot hold as a percent sign and two hexadecimal digits. Which bytes
these are depends on the part of the URL; a character beyond ASCII is always encoded, byte by byte.
-/

namespace RangeSync.Url

open Text

/-- The parts of a URL that encode different characters. -/
inductive Part
  /-- Paths that are not cut at slashes, and hosts that are no domain names. -/
  | opaquePart
  | fragment
  | query
  /-- Queries of the well-known schemes. -/
  | specialQuery
  | path
  /-- A name of a file path; it must not bring a slash or percent sign into the path. -/
  | segment
  | userInfo
deriving DecidableEq, Repr

/-- What fragments encode. -/
def fragmentSet : List Char := [' ', '"', '<', '>', '\u0060']

/-- What paths encode: also what would end the path. -/
def pathSet : List Char := fragmentSet ++ ['#', '?', '\x7b', '\x7d']

/-- The visible ASCII characters that a part encodes, and the space. -/
def Part.encoded : Part → List Char
  | .opaquePart => []
  | .fragment => fragmentSet
  | .query => [' ', '"', '#', '<', '>']
  | .specialQuery => [' ', '"', '#', '<', '>', '\'']
  | .path => pathSet
  | .segment => pathSet ++ ['/', '%', '\\']
  | .userInfo => pathSet ++ ['/', ':', ';', '=', '@', '[', '\\', ']', '^', '|']

/-- A byte as a percent sign and two uppercase digits. -/
def escapedByte (b : UInt8) : List Char :=
  ['%', (hexDigit (b.toNat / 16)).toUpper, (hexDigit (b.toNat % 16)).toUpper]

/-- One character as it stands in a part. -/
def Part.encodeChar (part : Part) (c : Char) : List Char :=
  if c.toNat < 0x20 || 0x7F ≤ c.toNat || part.encoded.contains c then
    (String.utf8EncodeChar c).flatMap escapedByte
  else [c]

/-- Text as it stands in a part. -/
def Part.encode (part : Part) (s : List Char) : List Char :=
  s.flatMap part.encodeChar

/-- The bytes that a text with percent signs stands for; a percent sign that no two digits follow
stands for itself. -/
def decodeBytes : List UInt8 → List UInt8
  | a :: b :: c :: rest =>
    if a = 0x25 then
      match hexValue? (Char.ofNat b.toNat), hexValue? (Char.ofNat c.toNat) with
      | some high, some low => UInt8.ofNat (high * 16 + low) :: decodeBytes rest
      | _, _ => a :: decodeBytes (b :: c :: rest)
    else a :: decodeBytes (b :: c :: rest)
  | bytes => bytes

/-- The bytes that a text stands for. -/
def percentDecoded (s : List Char) : List UInt8 :=
  decodeBytes (encode (String.ofList s))

end RangeSync.Url
