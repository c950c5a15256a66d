set_option autoImplicit false

/-! # Options

The options of a compilation change what the compiled check accepts or how it is built.
-/

namespace ShapeCheck

/-- The options of a compilation. -/
structure CompileOptions where
  /-- Objects with keys that their type does not declare are rejected. -/
  superfluousPropertyCheck : Bool := false
  /-- Methods are skipped; otherwise they cannot be compiled. -/
  ignoreMethods : Bool := false
  /-- The root accepts `undefined` as well. -/
  valueMayBeAbsent : Bool := false
  /-- Predicates of one expression are written out at their calls. -/
  inlineTrivialPredicates : Bool := true
  /-- The root accepts everything. -/
  shortCircuit : Bool := false
  deriving DecidableEq, Repr, Inhabited

namespace CompileOptions

/-- The options by name, in the order in which they are declared. -/
def fields (o : CompileOptions) : List (String × Bool) :=
  [("superfluousPropertyCheck", o.superfluousPropertyCheck), ("ignoreMethods", o.ignoreMethods),
    ("valueMayBeAbsent", o.valueMayBeAbsent),
    ("inlineTrivialPredicates", o.inlineTrivialPredicates), ("shortCircuit", o.shortCircuit)]

/-- The names of the options. -/
def names : List String := (fields {}).map Prod.fst

/-- Sets the option of this name, if there is one. -/
def set (o : CompileOptions) (name : String) (value : Bool) : CompileOptions :=
  match name with
  | "superfluousPropertyCheck" => { o with superfluousPropertyCheck := value }
  | "ignoreMethods" => { o with ignoreMethods := value }
  | "valueMayBeAbsent" => { o with valueMayBeAbsent := value }
  | "inlineTrivialPredicates" => { o with inlineTrivialPredicates := value }
  | "shortCircuit" => { o with shortCircuit := value }
  | _ => o

end CompileOptions

end ShapeCheck
