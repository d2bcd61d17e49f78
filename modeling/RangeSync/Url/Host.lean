import RangeSync.Idna.Name
import RangeSync.Text.Digits
import RangeSync.Url.Fault
import RangeSync.Url.Percent

/-!
# Hosts

The host of a URL is a domain name or an address. A name whose last part is a number has to be an
address of four bytes, which may be written with fewer parts and in octal or hexadecimal; an
address in brackets has eight groups of sixteen bits, of which one run of zeros may be left out.
Hosts of schemes that are not well known are kept as they are.
-/

namespace RangeSync.Url

open Text

/-- A host. -/
inductive Host
  | domain (name : String)
  | ipv4 (address : Nat)
  /-- Eight groups of sixteen bits. -/
  | ipv6 (groups : List Nat)
deriving DecidableEq, Repr

/-! ### Addresses of four bytes -/

/-- The number that a part of an address spells: `0x` begins a hexadecimal number, another zero an
octal one. -/
def ipv4Number? (s : List Char) : Option Nat :=
  let value (base : Nat) (digits : List Char) : Option Nat :=
    digits.foldlM
      (fun n c => ((hexValue? c).filter (· < base)).map fun d => n * base + d) 0
  match s with
  | [] => none
  | '0' :: 'x' :: rest => value 16 rest
  | '0' :: 'X' :: rest => value 16 rest
  | '0' :: d :: rest => value 8 (d :: rest)
  | _ => value 10 s

/-- The parts of an address; an empty part at the end does not count. -/
def ipv4Parts (s : List Char) : List (List Char) :=
  let parts := fields '.' s
  if parts.getLast? = some [] then parts.dropLast else parts

/-- The name ends in a number, so it has to be an address. -/
def endsInNumber (s : List Char) : Bool :=
  match (ipv4Parts s).getLast? with
  | none => false
  | some last => (!last.isEmpty && last.all isDigit) || (ipv4Number? last).isSome

/-- The bound of the numbers of so many bytes. -/
def bytesBound (count : Nat) : Nat :=
  1 <<< (8 * count)

/-- The address that a name spells. The last number fills the bytes that are left. -/
def ipv4? (s : List Char) : Option Nat := do
  let numbers ← (ipv4Parts s).mapM ipv4Number?
  let last ← numbers.getLast?
  let first := numbers.dropLast
  if 3 < first.length || first.any (255 < ·) || bytesBound (4 - first.length) ≤ last then none
  else
    let high := first.foldl (fun n b => n * 256 + b) 0
    some (high * bytesBound (4 - first.length) + last)

/-- The four bytes with points between them. -/
def ipv4Text (address : Nat) : String :=
  ".".intercalate ([3, 2, 1, 0].map fun i => decimal ((address >>> (8 * i)) % 256))

/-! ### Addresses of eight groups -/

/-- A byte of an address in decimal, without leading zeros. -/
def ipv4Byte? (s : List Char) : Option Nat :=
  if s.length = 1 ∨ s.head? ≠ some '0' then (numeral? s).filter (· ≤ 255) else none

/-- The two groups that four bytes make. -/
def embedded? (s : List Char) : Option (List Nat) := do
  match ← (fields '.' s).mapM ipv4Byte? with
  | [a, b, c, d] => some [a * 256 + b, c * 256 + d]
  | _ => none

/-- A group: one to four hexadecimal digits. -/
def group? (s : List Char) : Option Nat :=
  if s.isEmpty ∨ 4 < s.length then none
  else s.foldlM (fun n c => (hexValue? c).map (n * 16 + ·)) 0

/-- Groups with colons between them; four bytes may stand for the last two. -/
def groups? : List (List Char) → Option (List Nat)
  | [] => some []
  | [last] => if last.contains '.' then embedded? last else (group? last).map ([·])
  | part :: rest => do
    let n ← group? part
    let more ← groups? rest
    some (n :: more)

/-- Groups on one side of the gap; there may be none. -/
def side? (s : List Char) : Option (List Nat) :=
  if s.isEmpty then some [] else groups? (fields ':' s)

/-- The groups of an address. The gap of zeros is at least one group wide. -/
def ipv6? (s : List Char) : Option (List Nat) :=
  match cutAround? [':', ':'] s with
  | none => (side? s).filter (·.length == 8)
  | some (before, after) => do
    if before.contains '.' then none
    else
      let left ← side? before
      let right ← side? after
      if left.length + right.length < 8 then
        some (left ++ List.replicate (8 - left.length - right.length) 0 ++ right)
      else none

/-- The length of the run of zeros at the beginning. -/
def zeroRun (groups : List Nat) : Nat :=
  (groups.takeWhile (· == 0)).length

/-- The place and length of the longest run of zeros, the first of several. -/
def longestZeroRun (groups : List Nat) : Nat × Nat :=
  (List.range groups.length).foldl
    (fun best i =>
      let n := zeroRun (groups.drop i)
      if best.2 < n then (i, n) else best)
    (0, 0)

/-- Groups with colons between them. -/
def groupsText (groups : List Nat) : String :=
  ":".intercalate (groups.map fun g => String.ofList (hexNat g))

/-- The groups with the longest run of at least two zeros left out. -/
def ipv6Text (groups : List Nat) : String :=
  let (start, length) := longestZeroRun groups
  if length < 2 then groupsText groups
  else groupsText (groups.take start) ++ "::" ++ groupsText (groups.drop (start + length))

/-! ### Hosts -/

/-- The printed form of a host. -/
def Host.toText : Host → String
  | .domain name => name
  | .ipv4 address => ipv4Text address
  | .ipv6 groups => "[" ++ ipv6Text groups ++ "]"

/-- The address in brackets. -/
def bracketedHost (s : List Char) : Except Fault Host :=
  match s with
  | '[' :: rest =>
    if rest.getLast? = some ']' then
      match ipv6? rest.dropLast with
      | some groups => .ok (.ipv6 groups)
      | none => .error .invalidIpv6
    else .error .invalidIpv6
  | _ => .error .invalidIpv6

/-- The host of a well-known scheme. -/
def specialHost (s : List Char) : Except Fault Host :=
  if s.head? = some '[' then bracketedHost s
  else
    match (decode? (percentDecoded s)).bind Idna.toAscii? with
    | none => .error .invalidInternationalName
    | some name =>
      if name.isEmpty then .error .emptyHost
      else if endsInNumber name.toList then
        match ipv4? name.toList with
        | some address => .ok (.ipv4 address)
        | none => .error .invalidIpv4
      else .ok (.domain name)

/-- The ASCII characters that no host can hold. -/
def isForbiddenInHost (c : Char) : Bool :=
  ['\x00', '\t', '\n', '\r', ' ', '#', '/', ':', '<', '>', '?', '@', '[', '\\', ']', '^',
    '|'].contains c

/-- The host of any other scheme, kept as it is. -/
def opaqueHost (s : List Char) : Except Fault Host :=
  if s.head? = some '[' then bracketedHost s
  else if s.any isForbiddenInHost then .error .invalidDomainCharacter
  else .ok (.domain (String.ofList (Part.opaquePart.encode s)))

end RangeSync.Url
