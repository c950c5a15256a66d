import ShapeCheck.Number.Notation

set_option autoImplicit false

/-! # Type descriptors

A `Descriptor` is one node of a graph of structural types. Its children are handles into the arena
that owns the graph, so equal types are equal nodes, and a named type is a reference to a definition
that is looked up only when somebody unfolds it. That is how a type can contain itself while the
nodes stay a finite tree.

Main fact: `ViewKind.ofConstructorName?_constructorName` (a numeric view is known by the name of its
constructor).
-/

namespace ShapeCheck

/-! ## Handles -/

/-- A descriptor in an arena. -/
structure TypeId where
  index : Nat
  deriving DecidableEq, Repr, Inhabited

/-- A type parameter in an arena. -/
structure ParameterId where
  index : Nat
  deriving DecidableEq, Repr, Inhabited

/-- A definition in an arena. -/
structure DefinitionId where
  index : Nat
  deriving DecidableEq, Repr, Inhabited

/-! ## Keywords -/

/-- The types that are written as one word. -/
inductive Keyword
  | any
  | unknown
  | never
  | null
  | undefined
  | number
  | bigint
  | boolean
  | string
  /-- Everything that is not primitive. -/
  | object
  /-- Has no structural check. -/
  | symbol
  deriving DecidableEq, Repr, Inhabited

namespace Keyword

/-- The word. -/
def text : Keyword → String
  | any => "any"
  | unknown => "unknown"
  | never => "never"
  | null => "null"
  | undefined => "undefined"
  | number => "number"
  | bigint => "bigint"
  | boolean => "boolean"
  | string => "string"
  | object => "object"
  | symbol => "symbol"

/-- All keywords, in the order of their handles. -/
def all : List Keyword :=
  [any, unknown, never, null, undefined, number, bigint, boolean, string, object, symbol]

end Keyword

/-! ## Numeric views -/

/-- The element kind of a numeric view over binary memory. -/
inductive ViewKind
  | int8
  | uint8
  | uint8Clamped
  | int16
  | uint16
  | int32
  | uint32
  | float32
  | float64
  | bigInt64
  | bigUint64
  deriving DecidableEq, Repr, Inhabited

namespace ViewKind

/-- The name of the constructor of such views. -/
def constructorName : ViewKind → String
  | int8 => "Int8Array"
  | uint8 => "Uint8Array"
  | uint8Clamped => "Uint8ClampedArray"
  | int16 => "Int16Array"
  | uint16 => "Uint16Array"
  | int32 => "Int32Array"
  | uint32 => "Uint32Array"
  | float32 => "Float32Array"
  | float64 => "Float64Array"
  | bigInt64 => "BigInt64Array"
  | bigUint64 => "BigUint64Array"

/-- The bytes of one element. -/
def elementSize : ViewKind → Nat
  | int8 | uint8 | uint8Clamped => 1
  | int16 | uint16 => 2
  | int32 | uint32 | float32 => 4
  | float64 | bigInt64 | bigUint64 => 8

/-- All kinds. -/
def all : List ViewKind :=
  [int8, uint8, uint8Clamped, int16, uint16, int32, uint32, float32, float64, bigInt64, bigUint64]

/-- The kind whose constructor has this name. -/
def ofConstructorName? (name : String) : Option ViewKind :=
  all.find? fun kind => kind.constructorName == name

theorem ofConstructorName?_constructorName (kind : ViewKind) :
    ofConstructorName? kind.constructorName = some kind := by
  cases kind <;> decide

end ViewKind

/-! ## Shapes -/

/-- A member of an object shape. -/
structure Property where
  name : String
  /-- Absent where nothing is said about the value, as for most methods. -/
  type : Option TypeId
  optional : Bool
  method : Bool
  /-- Keyed by a symbol: such a member has no text to look it up by. -/
  symbolKeyed : Bool
  deriving DecidableEq, Repr, Inhabited

/-- The members of an object type, and the type of the values under all other keys. -/
structure ObjectShape where
  properties : List Property
  index : Option TypeId
  deriving DecidableEq, Repr, Inhabited

/-- The first member of this name. -/
def ObjectShape.property? (shape : ObjectShape) (name : String) : Option Property :=
  shape.properties.find? fun property => property.name == name

/-- A position of a tuple type. -/
structure TupleElement where
  type : TypeId
  optional : Bool
  deriving DecidableEq, Repr, Inhabited

/-- The least length of a tuple: its positions before the first optional one. -/
def TupleElement.minLength (elements : List TupleElement) : Nat :=
  elements.findIdx TupleElement.optional

/-! ## Descriptors -/

/-- A structural type. -/
inductive Descriptor
  | keyword (word : Keyword)
  | stringLiteral (value : String)
  | numberLiteral (value : Double)
  | booleanLiteral (value : Bool)
  | array (element : TypeId)
  | tuple (elements : List TupleElement)
  | object (shape : ObjectShape)
  | union (members : List TypeId)
  | intersection (members : List TypeId)
  /-- A definition applied to type arguments. -/
  | reference (target : DefinitionId) (arguments : List TypeId)
  | parameter (id : ParameterId)
  | indexAccess (whole key : TypeId)
  | keyof (operand : TypeId)
  | buffer
  | view (kind : ViewKind)
  deriving DecidableEq, Repr, Inhabited

namespace Descriptor

/-- The word for this kind of type in messages. -/
def kindName : Descriptor → String
  | keyword word => word.text
  | stringLiteral _ => "string literal"
  | numberLiteral _ => "number literal"
  | booleanLiteral _ => "boolean literal"
  | array _ => "array"
  | tuple _ => "tuple"
  | object _ => "object literal"
  | union _ => "union"
  | intersection _ => "intersection"
  | reference _ _ => "type reference"
  | parameter _ => "type parameter"
  | indexAccess _ _ => "indexed access"
  | keyof _ => "keyof"
  | buffer => "Buffer"
  | view _ => "numeric view"

/-- The handles that a descriptor holds. -/
def children : Descriptor → List TypeId
  | array element => [element]
  | tuple elements => elements.map TupleElement.type
  | object shape => shape.properties.filterMap Property.type ++ shape.index.toList
  | union members => members
  | intersection members => members
  | reference _ arguments => arguments
  | indexAccess whole key => [whole, key]
  | keyof operand => [operand]
  | _ => []

end Descriptor

/-! ## Strategies -/

/-- How a type is checked. -/
inductive Strategy
  | special
  | primitive
  | booleanLiteral
  | reference
  | parameter
  | tuple
  | array
  | buffer
  | view
  | object
  | literal
  | union
  | intersection
  | nonPrimitive
  | keyof
  | indexAccess
  /-- There is no check for the type. -/
  | unsupported
  deriving DecidableEq, Repr, Inhabited

/-- The strategy for a keyword. -/
def Keyword.strategy : Keyword → Strategy
  | .any | .unknown | .never | .null | .undefined => .special
  | .number | .bigint | .boolean | .string => .primitive
  | .object => .nonPrimitive
  | .symbol => .unsupported

/-- The strategy for a descriptor. -/
def Descriptor.strategy : Descriptor → Strategy
  | .keyword word => word.strategy
  | .stringLiteral _ => .literal
  | .numberLiteral _ => .literal
  | .booleanLiteral _ => .booleanLiteral
  | .array _ => .array
  | .tuple _ => .tuple
  | .object _ => .object
  | .union _ => .union
  | .intersection _ => .intersection
  | .reference _ _ => .reference
  | .parameter _ => .parameter
  | .indexAccess _ _ => .indexAccess
  | .keyof _ => .keyof
  | .buffer => .buffer
  | .view _ => .view

end ShapeCheck
