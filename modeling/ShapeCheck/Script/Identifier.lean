set_option autoImplicit false

/-! # Identifiers of predicates

The canonical name of a predicate is a type expression. In a script its function is called `is_` and
what is left of the name: its runs of ASCII letters and digits, joined by underscores. Names that
leave the same are told apart by a number at the end.

Main facts: `Identifiers.get?_assign` (an assigned name has an identifier) and
`Identifiers.assign_of_get?` (a name keeps the identifier it has).
-/

namespace ShapeCheck

namespace Script

/-! ## Stems -/

/-- A stem of this length takes no further character. -/
def stemLimit : Nat := 48

/-- Adds the letters and digits of a text to a stem. An underscore stands for what is left out
between two of them; `gap` says that something has been left out before the text. -/
def extendStem (stem : List Char) (gap : Bool) : List Char → List Char
  | [] => stem
  | c :: rest =>
    if c.isAlphanum then
      let longer := if gap && !stem.isEmpty then stem ++ ['_', c] else stem ++ [c]
      -- an underscore and a character are added together, so a stem may be one too long
      if stemLimit ≤ longer.length then longer else extendStem longer false rest
    else extendStem stem true rest

/-- What is left of a name. -/
def stem (name : String) : String :=
  match extendStem [] false name.toList with
  | [] => "anonymous"
  | chars => String.ofList chars

/-! ## Assignment -/

/-- The identifiers that names have been given, in order. -/
structure Identifiers where
  assigned : List (String × String)
  deriving DecidableEq, Repr, Inhabited

namespace Identifiers

/-- No names at all. -/
def empty : Identifiers := ⟨[]⟩

/-- The identifier of a name. -/
def get? (ids : Identifiers) (name : String) : Option String := ids.assigned.lookup name

/-- The identifier is taken. -/
def isUsed (ids : Identifiers) (identifier : String) : Bool :=
  ids.assigned.any (·.2 == identifier)

/-- The identifiers to try for a name: the plain one, then numbered ones from two on. -/
def candidate (name : String) : Nat → String
  | 0 => "is_" ++ stem name
  | n + 1 => "is_" ++ stem name ++ "_" ++ toString (n + 2)

/-- The first identifier for a name that is not taken. One of the candidates is free, because there
are more of them than identifiers that are taken. -/
def fresh (ids : Identifiers) (name : String) : String :=
  let free := (List.range (ids.assigned.length + 1)).find? fun n => !ids.isUsed (candidate name n)
  candidate name (free.getD 0)

/-- Gives a name an identifier, unless it has one. -/
def assign (ids : Identifiers) (name : String) : Identifiers :=
  match ids.get? name with
  | some _ => ids
  | none => ⟨ids.assigned ++ [(name, ids.fresh name)]⟩

/-- Gives names identifiers, one after the other. -/
def assignAll (ids : Identifiers) (names : List String) : Identifiers := names.foldl assign ids

/-- The identifier of a name; the one it would be given if it has none. -/
def of (ids : Identifiers) (name : String) : String := (ids.get? name).getD (ids.fresh name)

theorem assign_of_get? {ids : Identifiers} {name identifier : String}
    (h : ids.get? name = some identifier) : ids.assign name = ids := by
  simp [assign, h]

theorem get?_assign (ids : Identifiers) (name : String) :
    (ids.assign name).get? name = some (ids.of name) := by
  unfold assign of
  cases h : ids.get? name with
  | some identifier => simpa using h
  | none =>
    have absent : ∀ pair ∈ ids.assigned, (name == pair.1) = false := by
      simpa [get?, List.lookup_eq_none_iff] using h
    simp only [get?, Option.getD_none]
    rw [List.lookup_append, List.lookup_eq_none_iff.2 (by simpa using absent)]
    simp

end Identifiers

end Script

end ShapeCheck
