import ShapeCheck.Descriptor.Arena

set_option autoImplicit false

/-! # Why a type cannot be compiled

Every error ends the compilation that meets it. All but `CompileError.endless` are verdicts on the
type; that one says that the type was still unfolding into itself when the allowed depth was used
up, so nothing is known about it.
-/

namespace ShapeCheck

/-- Why a type cannot be compiled. -/
inductive CompileError
  /-- There is no check for the type. -/
  | unsupportedType (type : TypeId) (description : String)
  /-- A type parameter has neither an argument nor a default. -/
  | unboundParameter (name : String)
  /-- A member of an object says nothing about its value. -/
  | unsupportedProperty (name : String)
  /-- A method, while methods are not ignored. -/
  | methodDisallowed (name : String)
  /-- Instantiations, or steps from one parameter to the next, are nested too deeply. -/
  | instantiationTooDeep (name : String) (limit : Nat)
  /-- A definition was declared but has no body. -/
  | missingBody (name : String)
  /-- The type did not end within the allowed depth. -/
  | endless (type : TypeId)
  deriving DecidableEq, Repr, Inhabited

namespace CompileError

/-- A short name for the kind of error. -/
def code : CompileError → String
  | unsupportedType _ _ => "unsupported-type"
  | unboundParameter _ => "unbound-type-parameter"
  | unsupportedProperty _ => "unsupported-property-declaration"
  | methodDisallowed _ => "method-disallowed"
  | instantiationTooDeep _ _ => "instantiation-too-deep"
  | missingBody _ => "missing-definition-body"
  | endless _ => "endless-type"

/-- The error in words. -/
def message : CompileError → String
  | unsupportedType type description =>
    "Unsupported type `" ++ description ++ "` (type #" ++ toString type.index ++ ")"
  | unboundParameter name =>
    "Unbound type parameter `" ++ name ++ "`: no argument and no default"
  | unsupportedProperty name => "Unsupported declaration of property `" ++ name ++ "`"
  | methodDisallowed name =>
    "Encountered method `" ++ name ++
      "` while methods are disallowed (set `ignoreMethods` to skip them)"
  | instantiationTooDeep name limit =>
    "Instantiation of `" ++ name ++ "` is excessively deep (limit " ++ toString limit ++ ")"
  | missingBody name => "Definition `" ++ name ++ "` has no body"
  | endless type => "Type #" ++ toString type.index ++ " unfolds without end"

/-- The handle belongs to no descriptor. -/
def unknownType (type : TypeId) : CompileError := unsupportedType type "unknown type id"

end CompileError

/-- The descriptor behind a handle that has to be there. -/
def Arena.lookup (arena : Arena) (type : TypeId) : Except CompileError Descriptor :=
  match arena.lookup? type with
  | some descriptor => .ok descriptor
  | none => .error (.unknownType type)

/-- The definition that a reference leads to. -/
def Arena.target (arena : Arena) (reference : TypeId) (id : DefinitionId) :
    Except CompileError Definition :=
  match arena.definition? id with
  | some definition => .ok definition
  | none => .error (.unsupportedType reference "reference to an unknown definition")

/-- The body of a definition that has to have one. -/
def Definition.requireBody (definition : Definition) : Except CompileError TypeId :=
  match definition.body with
  | some body => .ok body
  | none => .error (.missingBody definition.name)

end ShapeCheck
