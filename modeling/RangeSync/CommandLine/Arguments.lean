/-!
# Arguments of the program

The program takes two or three positions and a few options, in any order. An option begins with two
dashes; its value follows behind an equals sign or as the next argument. What follows a bare `--`
is a position, whatever it looks like, and so is a single dash. Arguments are read from left to
right, and the first that is wrong decides; an argument without a value of its own is only found
wrong when the next one that can be right comes, or at the end.
-/

namespace RangeSync

/-- What the program is asked to do. -/
structure Arguments where
  /-- Where the descriptor is. -/
  location : String
  seed : String
  output : Option String
  /-- An output with the wrong digest is discarded. -/
  isStrict : Bool
  /-- The planner program, if one is named. -/
  planner : Option String
  /-- The progress is not printed. -/
  isQuiet : Bool
deriving DecidableEq, Repr

/-- Why arguments do not say what is to be done. -/
inductive ArgumentFault
  /-- A position is missing. -/
  | missing
  /-- An option that does not exist, or a position too many. -/
  | unknown
  /-- An option is given twice. -/
  | repeated
  /-- A value is missing or empty. -/
  | invalidValue
  /-- A value is given to an option that has none. -/
  | tooManyValues
  /-- The usage is asked for. -/
  | help
  /-- The version is asked for. -/
  | version
deriving DecidableEq, Repr

/-- The program was used wrongly, rather than asked about itself. -/
def ArgumentFault.isMistake : ArgumentFault → Bool
  | .help => false
  | .version => false
  | _ => true

namespace Arguments

/-- An argument that is not judged yet. -/
inductive Pending
  | nothing
  | position (text : String)
  /-- The planner option, with its value as soon as that is known. -/
  | planner (value : Option String)
deriving DecidableEq, Repr

/-- What has been read. -/
structure Reading where
  /-- The positions, in order. -/
  positions : List String
  isStrict : Bool
  planner : Option String
  isQuiet : Bool
  pending : Pending
  /-- A bare `--` has been read. -/
  isTrailing : Bool
deriving DecidableEq, Repr

/-- The result of reading. -/
abbrev Read (α : Type) := Except ArgumentFault α

/-- How many positions there can be. -/
def positionLimit : Nat := 3

namespace Reading

/-- Nothing read yet. -/
def start : Reading := ⟨[], false, none, false, .nothing, false⟩

/-- How many positions there are, the pending one included. -/
def positionCount (r : Reading) : Nat :=
  match r.pending with
  | .position _ => r.positions.length + 1
  | _ => r.positions.length

/-- Name the planner. -/
def namePlanner (r : Reading) (value : String) : Read Reading :=
  if r.planner.isSome then .error .repeated else .ok { r with planner := some value }

/-- Judge the pending argument. Only the location of the descriptor may be empty. -/
def settle (r : Reading) : Read Reading :=
  let rest := { r with pending := .nothing }
  match r.pending with
  | .nothing => .ok rest
  | .position text =>
    if text.isEmpty && !r.positions.isEmpty then .error .invalidValue
    else .ok { rest with positions := r.positions ++ [text] }
  | .planner none => .error .invalidValue
  | .planner (some value) => rest.namePlanner value

/-- A position. -/
def addPosition (r : Reading) (text : String) : Read Reading := do
  if positionLimit ≤ r.positionCount then throw .unknown
  let r ← r.settle
  pure { r with pending := .position text }

/-- An option without a value. -/
def addFlag (r : Reading) (name : String) : Read Reading := do
  match name with
  | "strict" =>
    let r ← r.settle
    if r.isStrict then throw .repeated else pure { r with isStrict := true }
  | "no-progress" =>
    let r ← r.settle
    if r.isQuiet then throw .repeated else pure { r with isQuiet := true }
  | "planner" =>
    let r ← r.settle
    pure { r with pending := .planner none }
  | "help" =>
    let _ ← r.settle
    throw .help
  | "version" =>
    let _ ← r.settle
    throw .version
  | _ => throw .unknown

/-- An option with a value behind an equals sign. -/
def addValued (r : Reading) (name value : String) : Read Reading := do
  match name with
  | "planner" =>
    let r ← r.settle
    r.namePlanner value
  | "strict" | "no-progress" | "help" | "version" => throw .tooManyValues
  | _ => throw .unknown

/-- An option of two dashes, which are left out of `text`. -/
def addLong (r : Reading) (text : List Char) : Read Reading :=
  let name := String.ofList (text.takeWhile (· != '='))
  match text.dropWhile (· != '=') with
  | [] => r.addFlag name
  | _ :: value => r.addValued name (String.ofList value)

/-- An option of one letter. -/
def addShort (r : Reading) (letter : Char) : Read Reading :=
  match letter with
  | 'h' => r.addFlag "help"
  | 'V' => r.addFlag "version"
  | _ => .error .unknown

/-- One more argument. -/
def add (r : Reading) (argument : String) : Read Reading :=
  if r.isTrailing then r.addPosition argument
  else
    match argument.toList with
    | ['-', '-'] => .ok { r with isTrailing := true }
    | '-' :: '-' :: text => r.addLong text
    | '-' :: letter :: _ => r.addShort letter
    | _ =>
      match r.pending with
      | .planner none => .ok { r with pending := .planner (some argument) }
      | _ => r.addPosition argument

/-- What has been read in the end. -/
def finish (r : Reading) : Read Arguments := do
  let r ← r.settle
  match r.positions with
  | location :: seed :: rest => pure ⟨location, seed, rest.head?, r.isStrict, r.planner, r.isQuiet⟩
  | _ => throw .missing

end Reading

/-- **Reading arguments**, without the name of the program. -/
def read (arguments : List String) : Read Arguments := do
  (← arguments.foldlM Reading.add Reading.start).finish

end Arguments
end RangeSync
