import ShapeCheck.Files.Basic

set_option autoImplicit false

/-! # Files in memory

A tree of files is a list of texts with the names that lead to them. Its directories are those that
some file needs. Locations are followed from the top, name by name: a dot stays, two dots go up, and
nothing is above the top.

Main facts: `FileTree.look_identity` (a file is its own identity however it is reached) and
`FileTree.walk_append` (a location is followed in parts).
-/

namespace ShapeCheck

/-- Texts by the names that lead to them, the last name first. -/
structure FileTree where
  texts : List (List String × String)
  deriving Repr, Inhabited

namespace FileTree

/-- What a location leads to, by the names from the top, the last one first. -/
inductive Place
  | directory (names : List String)
  | file (names : List String) (text : String)
  deriving Repr, Inhabited

/-- The names of a place with slashes between them. -/
def spell (names : List String) : String := String.intercalate "/" names.reverse

/-- The tree with these texts at these locations. -/
def ofList (entries : List (String × String)) : FileTree :=
  ⟨entries.map fun (location, text) =>
    (((location.splitOn "/").filter fun name => name != "" && name != ".").reverse, text)⟩

/-- Some file lies below these names. -/
def hasDirectory (t : FileTree) (names : List String) : Bool :=
  t.texts.any fun (path, _) => names.length < path.length && names.isSuffixOf path

/-- Follows names from a place. Nothing is below a file, not even the file itself. -/
def walk (t : FileTree) : Place → List String → Except FileError Place
  | place, [] => .ok place
  | .file _ _, _ :: _ => .error .notDirectory
  | .directory names, name :: rest =>
    if name = "" ∨ name = "." then t.walk (.directory names) rest
    else if name = ".." then
      match names with
      | [] => .error .notFound
      | _ :: above => t.walk (.directory above) rest
    else
      match t.texts.lookup (name :: names) with
      | some text => t.walk (.file (name :: names) text) rest
      | none =>
        if t.hasDirectory (name :: names) then t.walk (.directory (name :: names)) rest
        else .error .notFound

theorem walk_append (t : FileTree) (place : Place) (first rest : List String) :
    t.walk place (first ++ rest) = t.walk place first >>= fun place => t.walk place rest := by
  fun_induction walk t place first <;> simp only [List.nil_append, List.cons_append, walk]
  all_goals simp_all only [bind, Except.bind, if_true, if_false]
  all_goals rfl

/-- Follows a location from the top. Only locations below the top lead anywhere. -/
def find (t : FileTree) (location : String) : Except FileError Place :=
  if location.isEmpty || location.startsWith "/" then .error .notFound
  else t.walk (.directory []) (location.splitOn "/")

/-- What is seen at a source. There is nothing to read on the standard input. -/
def look (t : FileTree) : Source → Sight
  | .standardInput => ⟨"", false, .ok ""⟩
  | .file location =>
    match t.find location with
    | .ok (.file names text) => ⟨spell names, true, .ok text⟩
    | .ok (.directory names) => ⟨spell names, false, .error .isDirectory⟩
    | .error why => ⟨location, false, .error why⟩

theorem look_identity {t : FileTree} {location : String} {names : List String} {text : String}
    (found : t.find location = .ok (.file names text)) :
    (t.look (.file location)).identity = spell names := by
  simp [look, found]

/-- Where a text is written: over a file that is there, or into a directory that is there. A
location that ends with a slash asks for a directory. -/
def target (t : FileTree) (location : String) : Except FileError String :=
  match t.find location with
  | .ok (.file names _) => .ok (spell names)
  | .ok (.directory _) => .error .isDirectory
  | .error why =>
    match (location.splitOn "/").reverse.dropWhile (· == "") with
    | [] => .error why
    | name :: above =>
      match t.walk (.directory []) above.reverse with
      | .error why => .error why
      | .ok (.file _ _) => .error .notDirectory
      | .ok (.directory names) =>
        if location.startsWith "/" || name == "." || name == ".." then .error why
        else if location.endsWith "/" then .error .isDirectory
        else .ok (spell (name :: names))

end FileTree

end ShapeCheck
