set_option autoImplicit false

/-! # Files that have been looked at

The program decides what to read while it runs. `Files` hold what it has seen so far; when it needs
something that is not among them it stops and says so, and is started again with one more entry.
Whoever answers may be the operating system or a list in memory, and nothing but the answers can
change the result.

Main fact: `Files.get_add` (what was added is found).
-/

namespace ShapeCheck

/-- Why a file cannot be read or written. -/
inductive FileError
  | notFound
  /-- A file stands where a directory is needed. -/
  | notDirectory
  /-- A directory stands where a file is needed. -/
  | isDirectory
  | permissionDenied
  /-- The contents are not text. -/
  | notText
  | other (description : String)
  deriving DecidableEq, Repr, Inhabited

/-- The error in words. -/
def FileError.message : FileError → String
  | notFound => "no such file or directory"
  | notDirectory => "not a directory"
  | isDirectory => "is a directory"
  | permissionDenied => "permission denied"
  | notText => "the contents are not valid text"
  | other description => description

/-- A place that text is read from. -/
inductive Source
  | file (location : String)
  | standardInput
  deriving DecidableEq, Repr, Inhabited

/-- What is seen at a source. -/
structure Sight where
  /-- The same for all locations that lead to one file. -/
  identity : String
  /-- There is a file, which may be unreadable all the same. -/
  isFile : Bool
  text : Except FileError String
  deriving Repr

instance : Inhabited Sight := ⟨⟨"", false, .error .notFound⟩⟩

/-- What has been seen so far. -/
abbrev Files := List (Source × Sight)

/-- Work stopped: because of a source that has not been looked at, or because of an error. -/
inductive Stop (ε : Type)
  | needs (source : Source)
  | failed (error : ε)
  deriving Repr, Inhabited

namespace Files

/-- Looks at a source. -/
def get {ε : Type} (files : Files) (source : Source) : Except (Stop ε) Sight :=
  match files.lookup source with
  | some sight => .ok sight
  | none => .error (.needs source)

/-- The text of a source; an error is explained by what it was read for. -/
def read {ε : Type} (files : Files) (source : Source) (explain : FileError → ε) :
    Except (Stop ε) String := do
  match (← files.get source).text with
  | .ok text => return text
  | .error why => throw (.failed (explain why))

/-- The first of some locations that is a file. -/
def findFile {ε : Type} (files : Files) : List String → Except (Stop ε) (Option String)
  | [] => .ok none
  | location :: rest => do
    if (← files.get (.file location)).isFile then return some location
    else findFile files rest

theorem get_add {ε : Type} (files : Files) (source : Source) (sight : Sight) :
    get (ε := ε) ((source, sight) :: files) source = .ok sight := by
  simp [get]

end Files

end ShapeCheck
