import ShapeCheck.Descriptor.Arena
import ShapeCheck.Json.Token

set_option autoImplicit false

/-! # Type documents

A `Document` describes types by name: definitions, each with its type parameters, the definitions it
extends and its body, and the root type that values are to be checked against. Its expressions are
trees; names are resolved when the document is lowered into an arena.
-/

namespace ShapeCheck

/-- What a member of an object expression says besides its type. -/
structure PropertyHead where
  name : String
  optional : Bool
  method : Bool
  symbolKeyed : Bool
  deriving DecidableEq, Repr, Inhabited

/-- A type expression. -/
inductive TypeExpr
  | keyword (word : Keyword)
  | buffer
  | stringLiteral (value : String)
  | numberLiteral (value : Double)
  | booleanLiteral (value : Bool)
  | array (element : TypeExpr)
  | tuple (elements : List (TypeExpr × Bool))
  | object (properties : List (PropertyHead × Option TypeExpr)) (index : Option TypeExpr)
  | union (members : List TypeExpr)
  | intersection (members : List TypeExpr)
  | reference (target : String) (arguments : List TypeExpr)
  | parameter (name : String)
  | indexAccess (whole key : TypeExpr)
  | keyof (operand : TypeExpr)
  | view (kind : ViewKind)
  deriving Repr, Inhabited

/-- A type parameter of a definition. -/
structure ParameterDecl where
  name : String
  default : Option TypeExpr
  deriving Repr, Inhabited

/-- A named type. -/
structure DefinitionDecl where
  name : String
  parameters : List ParameterDecl
  /-- What it extends; each of them has to be a reference. -/
  bases : List TypeExpr
  body : TypeExpr
  deriving Repr, Inhabited

/-- Named types, and the type that values are checked against. -/
structure Document where
  definitions : List DefinitionDecl
  root : TypeExpr
  deriving Repr, Inhabited

/-! ## Errors -/

/-- Why a document cannot be used. -/
inductive DocumentError
  /-- The text is not a document. -/
  | unreadable (fault : Json.Fault)
  /-- Two definitions share a name. -/
  | duplicateDefinition (name : String)
  /-- A reference names no definition. -/
  | unknownDefinition (name : String)
  /-- A type parameter is not declared by the definition around it. -/
  | unknownParameter (name : String)
  /-- A reference has more arguments than its target has parameters. -/
  | tooManyArguments (target : String) (expected found : Nat)
  /-- A definition extends something other than a reference. -/
  | invalidBase (definition : String)
  deriving DecidableEq, Repr, Inhabited

/-- The message of an error in a document that could be read. -/
def DocumentError.message : DocumentError → String
  | unreadable _ => "invalid type document"
  | duplicateDefinition name => s!"duplicate definition '{name}'"
  | unknownDefinition name => s!"reference to unknown definition '{name}'"
  | unknownParameter name => s!"type parameter '{name}' is not declared in this scope"
  | tooManyArguments target expected found =>
    s!"'{target}' declares {expected} type parameter(s) but {found} argument(s) were given"
  | invalidBase definition => s!"base of '{definition}' must be a reference"

end ShapeCheck
