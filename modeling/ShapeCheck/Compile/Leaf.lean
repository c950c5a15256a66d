import ShapeCheck.Compile.Naming
import ShapeCheck.Predicate.Basic

set_option autoImplicit false

/-! # Leaf types

A leaf type is checked by one expression that looks at nothing but the value itself: its tag, a
constant that it has to equal, or a host check. What a leaf asks is remembered as a reason, except
for constants that accept or reject everything and for binary data.

Main fact: `Descriptor.leaf?_name` (the predicate of a leaf has the canonical name of its type).
-/

namespace ShapeCheck

/-- The predicate of a leaf type. -/
structure Leaf where
  name : String
  check : Expr
  reason : Option Reason
  deriving Repr, Inhabited

namespace Leaf

/-- The value equals a constant. -/
def constant (name : String) (value : Expr) (reason : Reason) : Leaf :=
  ⟨name, .strictEq .parameter value, some reason⟩

/-- The value has a tag, which is also the name of the type. -/
def tag (name : String) (reason : Reason) : Leaf :=
  ⟨name, .typeOfIs .parameter name, some reason⟩

/-- Everything that is not primitive: functions, and objects that are not null. -/
def nonPrimitive (name : String) : Leaf where
  name := name
  check :=
    .or [.and [.typeOfIs .parameter "object", .strictNe .parameter .null],
      .typeOfIs .parameter "function"]
  reason := some .nonPrimitive

/-- A numeric view is told by its constructor: views of equal byte length look the same
otherwise. -/
def ofView (kind : ViewKind) : Leaf where
  name := kind.constructorName
  check :=
    .and [.isView .parameter,
      .strictEq (.constructorName .parameter) (.string kind.constructorName)]
  reason := none

end Leaf

/-- The check for a keyword. There is none for symbols. -/
def Keyword.leaf? (word : Keyword) : Option Leaf :=
  match word with
  | .any | .unknown => some ⟨word.text, .bool true, none⟩
  | .never => some ⟨word.text, .bool false, none⟩
  | .null => some (.constant word.text .null .null)
  | .undefined => some (.constant word.text .undefined .undefined)
  | .number => some (.tag word.text .number)
  | .bigint => some (.tag word.text .bigint)
  | .boolean => some (.tag word.text .boolean)
  | .string => some (.tag word.text .string)
  | .object => some (.nonPrimitive word.text)
  | .symbol => none

/-- The check for a leaf type. -/
def Descriptor.leaf? : Descriptor → Option Leaf
  | .keyword word => word.leaf?
  | .stringLiteral value =>
    some (.constant (Text.quote value) (.string value) (.stringLiteral value))
  | .numberLiteral value => some (.constant value.text (.number value) (.numberLiteral value))
  | .booleanLiteral value => some (.constant (toString value) (.bool value) (.booleanLiteral value))
  | .buffer => some ⟨"Buffer", .isBuffer .parameter, none⟩
  | .view kind => some (.ofView kind)
  | _ => none

theorem Descriptor.leaf?_name {descriptor : Descriptor} {leaf : Leaf}
    (h : descriptor.leaf? = some leaf) (arena : Arena)
    (name : Substitution → Bool → TypeId → Except CompileError String) (s : Substitution)
    (exact : Bool) : descriptor.nameWith arena name s exact = .ok leaf.name := by
  cases descriptor with
  | keyword word =>
    cases word <;> first
      | (cases h; rfl)
      | cases h
  | stringLiteral | numberLiteral | booleanLiteral | buffer | view =>
    cases h
    rfl
  | _ => cases h

end ShapeCheck
