import ShapeCheck.Predicate.Basic

set_option autoImplicit false

/-! # The registry of predicates

While types are compiled, every predicate is registered under its name before its body is built. A
body that needs its own type again finds the name taken and calls it, so a type that contains itself
becomes a predicate that calls itself.

Main fact: `Registry.contains_reserve` (a reserved name is found).
-/

namespace ShapeCheck

/-- Predicates by name, in the order in which the names were reserved. A name without a predicate is
reserved: its body is still being built. -/
structure Registry where
  entries : List (String × Option Predicate)
  deriving Repr, Inhabited

namespace Registry

/-- No names at all. -/
def empty : Registry := ⟨[]⟩

/-- The name is reserved or finished. -/
def contains (r : Registry) (name : String) : Bool := r.entries.any (·.1 == name)

/-- The finished predicate of this name. -/
def get? (r : Registry) (name : String) : Option Predicate := (r.entries.lookup name).join

/-- The name is reserved, and its predicate is not finished. -/
def isPending (r : Registry) (name : String) : Bool := (r.entries.lookup name) matches some none

/-- The number of names. -/
def size (r : Registry) : Nat := r.entries.length

/-- Reserves a name. -/
def reserve (r : Registry) (name : String) : Registry :=
  if r.contains name then r else ⟨r.entries ++ [(name, none)]⟩

/-- Stores a finished predicate under its name, which keeps its place. -/
def complete (r : Registry) (p : Predicate) : Registry :=
  let r := r.reserve p.name
  ⟨r.entries.map fun entry => if entry.1 == p.name then (p.name, some p) else entry⟩

/-- The finished predicates in order; names that are only reserved are left out. -/
def predicates (r : Registry) : List Predicate := r.entries.filterMap Prod.snd

/-- The registry that holds some predicates; of two with one name the last one, at the place of the
first. -/
def ofList (predicates : List Predicate) : Registry := predicates.foldl complete empty

/-- The finished predicate of this name accepts every value. -/
def isAlwaysTrue (r : Registry) (name : String) : Bool :=
  match r.get? name with
  | some p => p.isAlwaysTrue
  | none => false

theorem contains_reserve (r : Registry) (name : String) :
    (r.reserve name).contains name = true := by
  unfold reserve
  split
  · assumption
  · simp [contains]

end Registry

end ShapeCheck
