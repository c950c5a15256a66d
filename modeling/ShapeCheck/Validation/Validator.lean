import ShapeCheck.Compile.Options
import ShapeCheck.Predicate.Basic

set_option autoImplicit false

/-! # Validators

A `Validator` is a root predicate with all predicates that it calls.

Main fact: `Validator.predicate?_append` (of two predicates with one name the last one counts).
-/

namespace ShapeCheck

/-- A self-contained check. -/
structure Validator where
  /-- The name of the predicate that a value has to pass. -/
  root : String
  predicates : List Predicate
  /-- The options that it was compiled with. -/
  options : CompileOptions
  deriving Repr, Inhabited

namespace Validator

/-- The predicate of this name, the last one if there are several. -/
def predicate? (v : Validator) (name : String) : Option Predicate :=
  v.predicates.reverse.find? (·.name == name)

/-- The predicate that a value has to pass. -/
def rootPredicate? (v : Validator) : Option Predicate := v.predicate? v.root

theorem predicate?_append (v : Validator) (p : Predicate) :
    { v with predicates := v.predicates ++ [p] }.predicate? p.name = some p := by
  simp [predicate?]

end Validator

end ShapeCheck
