import RangeSync.Descriptor.Basic
import RangeSync.Text.Cut
import RangeSync.Text.Utf8

/-!
# Reading a descriptor

A descriptor file begins with header lines, `Key: value`, and ends its headers with a blank line;
what follows is binary and is not looked at. Line ends and spaces at the end of a line do not
count. `Descriptor.read` returns the descriptor and the bytes after the blank line.
-/

namespace RangeSync

open Text

/-- One line of a header section. -/
inductive HeaderLine
  /-- The line that ends the section. -/
  | blank
  /-- A key and its value. -/
  | field (key value : String)
deriving DecidableEq, Repr

namespace HeaderLine

/-- The characters that do not count at the end of a line. -/
def isTrailing (c : Char) : Bool :=
  c == '\n' || c == '\r' || c == ' '

/-- What a line says, given its number and its bytes. The first colon with a space after it ends
the key. -/
def read (number : Nat) (raw : List UInt8) : Except DescriptorError HeaderLine :=
  match decode? raw with
  | none => .error (.malformedLine number (decodeLossy raw))
  | some line =>
    match dropEndWhile isTrailing line.toList with
    | [] => .ok .blank
    | kept =>
      match cutAround? [':', ' '] kept with
      | none => .error (.malformedLine number (String.ofList kept))
      | some (key, value) => .ok (.field (String.ofList key) (String.ofList value))

end HeaderLine

namespace Descriptor

/-- The byte that ends a line. -/
def newline : UInt8 := 10

/-- The first line of the bytes with its end, if it has one, and the bytes after it. -/
def firstLine : List UInt8 → List UInt8 × List UInt8
  | [] => ([], [])
  | b :: rest =>
    if b = newline then ([b], rest)
    else
      let (line, after) := firstLine rest
      (b :: line, after)

/-- The line and the rest make up the bytes. -/
theorem firstLine_append (bytes : List UInt8) :
    (firstLine bytes).1 ++ (firstLine bytes).2 = bytes := by
  induction bytes with
  | nil => rfl
  | cons b rest ih =>
    by_cases h : b = newline
    · simp [firstLine, h]
    · simpa [firstLine, h] using ih

/-- A line of a nonempty text takes up at least one byte. -/
theorem length_firstLine_lt (b : UInt8) (rest : List UInt8) :
    (firstLine (b :: rest)).2.length < (b :: rest).length := by
  have h := congrArg List.length (firstLine_append (b :: rest))
  have h1 : 0 < (firstLine (b :: rest)).1.length := by
    unfold firstLine
    split <;> simp
  rw [List.length_append] at h
  omega

/-- The headers of the lines from line `number` on, added to `d`, and the bytes after the blank
line. -/
def readLines (d : Descriptor) (number : Nat) (bytes : List UInt8) :
    Except DescriptorError (Descriptor × List UInt8) :=
  match bytes with
  | [] => .error .missingTerminator
  | b :: rest =>
    match HeaderLine.read number (firstLine (b :: rest)).1 with
    | .error e => .error e
    | .ok .blank => .ok (d, (firstLine (b :: rest)).2)
    | .ok (.field key value) =>
      match d.insert key value with
      | .error e => .error e
      | .ok d => readLines d (number + 1) (firstLine (b :: rest)).2
termination_by bytes.length
decreasing_by exact length_firstLine_lt b rest

/-- The version of the format that cannot be read. -/
def legacyVersion : String := "0.0.4"

/-- **Reading a descriptor** from the beginning of the bytes. -/
def read (bytes : List UInt8) : Except DescriptorError (Descriptor × List UInt8) :=
  match readLines empty 1 bytes with
  | .error e => .error e
  | .ok (d, rest) =>
    if d.text? "zsync" = some legacyVersion then .error (.unsupportedVersion legacyVersion)
    else .ok (d, rest)

end Descriptor
end RangeSync
