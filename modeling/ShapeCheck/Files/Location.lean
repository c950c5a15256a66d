set_option autoImplicit false

/-! # Locations of files

A location is a text of names with slashes between them. Several slashes count as one, a single dot
stands for the directory that is reached already, and such endings do not belong to the last name.
Nothing is looked up here: two dots are a name like any other.

Main fact: `Location.join_of_absolute` (an absolute location stays what it is).
-/

namespace ShapeCheck

namespace Location

/-- The names of a location, the last one first, with the empty ones between slashes. -/
def reversedNames (location : String) : List String := (location.splitOn "/").reverse

/-- Drops empty names and dots at the end. -/
def dropEnding : List String → List String
  | "" :: next :: rest => dropEnding (next :: rest)
  | "." :: next :: rest => dropEnding (next :: rest)
  | names => names

/-- The location that names spell, the last one first. A single empty name is the root. -/
def ofReversedNames : List String → String
  | [""] => "/"
  | names => String.intercalate "/" names.reverse

/-- The location starts at the root. -/
def isAbsolute (location : String) : Bool := location.startsWith "/"

/-- The directory that holds a location; none for the root and the empty location. -/
def parent? (location : String) : Option String :=
  match dropEnding (reversedNames location) with
  | [] => none
  | [""] => none
  | _ :: rest => some (ofReversedNames (dropEnding rest))

/-- The directory and all that hold it, for a number of steps. -/
def ancestorsWithin : Nat → String → List String
  | 0, _ => []
  | steps + 1, location =>
    location ::
      match parent? location with
      | some parent => ancestorsWithin steps parent
      | none => []

/-- The directory and all that hold it. Each is shorter than the one before. -/
def ancestors (location : String) : List String :=
  ancestorsWithin (location.length + 1) location

/-- A location inside of a directory. -/
def join (directory location : String) : String :=
  if isAbsolute location then location
  else if directory.isEmpty || directory.endsWith "/" then directory ++ location
  else directory ++ "/" ++ location

/-- The name has an extension: a dot with something in front of it. -/
def hasExtension (name : String) : Bool :=
  match name.toList.reverse.dropWhile (· != '.') with
  | _ :: _ :: _ => true
  | _ => false

/-- Adds an extension to the name of a file that has none. -/
def withDefaultExtension (location extension : String) : String :=
  match dropEnding (reversedNames location) with
  | [] => location
  | name :: rest =>
    if name ∈ ["", ".", ".."] || hasExtension name then location
    else ofReversedNames ((name ++ "." ++ extension) :: rest)

theorem join_of_absolute {directory location : String} (h : isAbsolute location = true) :
    join directory location = location := by
  simp [join, h]

end Location

end ShapeCheck
