import ShapeCheck.Predicate.Expr
import ShapeCheck.Text.Identifier

set_option autoImplicit false

/-! # Failures

A `Failure` tells why a value was rejected and where: the path leads from the whole value to the
part that decided.
-/

namespace ShapeCheck

/-- One step of a path. -/
inductive Segment
  | key (name : String)
  | index (position : Nat)
  deriving DecidableEq, Repr, Inhabited

/-- The way from a value to one of its parts. -/
abbrev Path := List Segment

namespace Segment

/-- The step as an access expression. -/
def text : Segment → String
  | index position => "[" ++ toString position ++ "]"
  | key name =>
    if Text.isIdentifier name then "." ++ name else "[" ++ Text.quoteVisible name ++ "]"

/-- The step that a number stands for: a position if it is one. -/
def ofNumber (x : Double) : Segment :=
  if x.isPosition then index x.toPosition else key x.text

end Segment

/-- The path as an access expression. -/
def Path.text (path : Path) : String := "$input" ++ String.join (path.map Segment.text)

/-- Why a value was rejected. -/
structure Failure where
  message : String
  path : Path
  /-- Given where a leaf predicate decided. -/
  reason : Option Reason
  deriving DecidableEq, Repr, Inhabited

namespace Failure

/-- The start of the messages about a part. -/
def heading (path : Path) : String := "validation failed at " ++ path.text ++ ": "

/-- A leaf predicate rejected the part. -/
def ofReason (path : Path) (reason : Reason) : Failure :=
  ⟨heading path ++ reason.text, path, some reason⟩

/-- A predicate other than a leaf rejected the part. -/
def mismatch (path : Path) (expected : String) : Failure :=
  ⟨heading path ++ "expected " ++ expected, path, none⟩

/-- The object has a key that its type does not declare. -/
def superfluousKey (path : Path) (key : String) : Failure :=
  ⟨heading path ++ "superfluous property " ++ Text.quoteVisible key, path ++ [.key key], none⟩

/-- Calls of predicates were nested too deeply. -/
def depthExceeded (path : Path) : Failure :=
  ⟨heading path ++ "maximum validation depth exceeded", path, none⟩

end Failure

end ShapeCheck
