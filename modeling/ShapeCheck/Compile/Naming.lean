import ShapeCheck.Compile.Substitution
import ShapeCheck.Text.Identifier
import ShapeCheck.Text.Quoted
import ShapeCheck.Text.Sorted

set_option autoImplicit false

/-! # Canonical names

The name of a type is the key of its predicate: two types of one name share one. Names spell the
structure of a type with its parameters resolved, so instances of a generic definition with
different arguments have different names, and the members of unions, intersections and objects are
sorted, so their order does not matter.

A type that is checked for superfluous keys is checked differently, so objects, references,
intersections, `keyof` and indexed access are then marked by a word in front; arrays, tuples and
unions have marked members.

A name is spelled within a depth, which ends types that unfold into themselves.

Main fact: `typeNameWithin_parameter` (a parameter has the name of what it stands for).
-/

namespace ShapeCheck

/-! ## Names of definitions -/

/-- The names that predicates of built-in types have or start with. -/
def reservedNames : List String :=
  ["Array", "optional", "NaN", "Infinity", "any", "unknown", "never", "null", "undefined", "number",
    "bigint", "boolean", "string", "object", "symbol", "true", "false", "Buffer"]

/-- A name that cannot be taken for that of another kind of type. -/
def isPlainName (name : String) : Bool :=
  Text.isIdentifier name && !reservedNames.contains name &&
    (ViewKind.ofConstructorName? name).isNone

/-- The name of a definition, with its number where the declared name alone would not do. -/
def Arena.definitionName (arena : Arena) (id : DefinitionId) : String :=
  match arena.definition? id with
  | none => "@" ++ toString id.index
  | some definition =>
    if isPlainName definition.name && !arena.isNameShared definition.name then definition.name
    else definition.name ++ "@" ++ toString id.index

/-! ## Names of predicates -/

/-- The name of a predicate that accepts `undefined` as well. -/
def optionalName (inner : String) : String := "optional<" ++ inner ++ ">"

/-- The name of the check for keys outside of a set. -/
def exactKeysName (keys : List String) : String :=
  "keys \x7b" ++ String.intercalate ", " (keys.map Text.quote) ++ "\x7d"

/-- The word in front of the names of types that are checked for superfluous keys. -/
def exactMark (exact : Bool) : String := if exact then "exact " else ""

/-- The key of a member in a name. -/
def keyLabel (name : String) : String := if Text.isIdentifier name then name else Text.quote name

/-- The key of a member, marked if the member is optional. -/
def Property.label (property : Property) : String :=
  keyLabel property.name ++ if property.optional then "?" else ""

/-- The arguments of a reference to a definition, with defaults in place of those left out. -/
def Arena.allArguments (arena : Arena) : List ParameterId → List TypeId →
    List (Except CompileError TypeId)
  | [], _ => []
  | _ :: rest, argument :: arguments => .ok argument :: allArguments arena rest arguments
  | parameter :: rest, [] =>
    let argument :=
      match arena.default? parameter with
      | some type => .ok type
      | none => .error (.unboundParameter ((arena.parameter? parameter).elim "" Parameter.name))
    argument :: allArguments arena rest []

/-! ## Names of types -/

section
variable (arena : Arena) (name : Substitution → Bool → TypeId → Except CompileError String)
  (s : Substitution) (exact : Bool)

/-- The name of a position of a tuple, where `name` names types. -/
def TupleElement.nameWith (element : TupleElement) : Except CompileError String := do
  let inner ← name s exact element.type
  return if element.optional then inner ++ "?" else inner

/-- The name of a member of an object, where `name` names types. -/
def Property.nameWith (property : Property) : Except CompileError String :=
  if property.method then return property.label ++ "()"
  else
    match property.type with
    | some type => return property.label ++ ": " ++ (← name s exact type)
    -- a member without a type cannot be compiled, but it can be named
    | none => return property.label

/-- The name of an object, where `name` names types. Members that are keyed by symbols are left
out. -/
def ObjectShape.nameWith (shape : ObjectShape) : Except CompileError String := do
  let members ← (shape.properties.filter (!·.symbolKeyed)).mapM (Property.nameWith name s exact)
  let index ← shape.index.toList.mapM fun type => do
    return "[key: string]: " ++ (← name s exact type)
  return "\x7b" ++ String.intercalate "; " (Text.sort members ++ index) ++ "\x7d"

/-- The names of the members of a union or intersection, sorted and joined. -/
def membersNameWith (separator : String) (members : List TypeId) : Except CompileError String := do
  return String.intercalate separator (Text.sortUnique (← members.mapM (name s exact)))

/-- The name of a reference, where `name` names types. -/
def referenceNameWith (target : DefinitionId) (arguments : List TypeId) :
    Except CompileError String := do
  let base := arena.definitionName target
  match arena.definition? target with
  | none => return base
  | some definition =>
    if definition.parameters.isEmpty then return base
    else
      let names ← (arena.allArguments definition.parameters arguments).mapM fun argument => do
        name s exact (← argument)
      return base ++ "<" ++ String.intercalate ", " names ++ ">"

/-- The name of a descriptor, where `name` names types. -/
def Descriptor.nameWith : Descriptor → Except CompileError String
  | .keyword word => return word.text
  | .stringLiteral value => return Text.quote value
  | .numberLiteral value => return value.text
  | .booleanLiteral value => return toString value
  | .buffer => return "Buffer"
  | .view kind => return kind.constructorName
  | .array element => return "Array<" ++ (← name s exact element) ++ ">"
  | .tuple elements => do
    let names ← elements.mapM (TupleElement.nameWith name s exact)
    return "[" ++ String.intercalate ", " names ++ "]"
  | .object shape => return exactMark exact ++ (← shape.nameWith name s exact)
  | .union members => membersNameWith name s exact " | " members
  | .intersection members =>
    -- the members of an intersection are never checked for superfluous keys on their own
    return exactMark exact ++ (← membersNameWith name s false " & " members)
  | .reference target arguments =>
    return exactMark exact ++ (← referenceNameWith arena name s exact target arguments)
  | .parameter id => do
    let (type, visible) ← s.resolve arena id
    name visible exact type
  | .indexAccess whole key => do
    let whole ← name s false whole
    let key ← name s false key
    return exactMark exact ++ whole ++ "[" ++ key ++ "]"
  | .keyof operand => return exactMark exact ++ "keyof " ++ (← name s false operand)

end

/-- The name of a type whose parameters are read with a substitution, within a depth. -/
def typeNameWithin (arena : Arena) : Nat → Substitution → Bool → TypeId →
    Except CompileError String
  | 0, _, _, type => .error (.endless type)
  | depth + 1, s, exact, type => do
    let descriptor ← arena.lookup type
    descriptor.nameWith arena (typeNameWithin arena depth) s exact

theorem typeNameWithin_parameter {arena : Arena} {depth : Nat} {s visible : Substitution}
    {exact : Bool} {type target : TypeId} {id : ParameterId}
    (found : arena.lookup? type = some (.parameter id))
    (stands : s.resolve arena id = .ok (target, visible)) :
    typeNameWithin arena (depth + 1) s exact type =
      typeNameWithin arena depth visible exact target := by
  simp [typeNameWithin, Arena.lookup, found, Descriptor.nameWith, stands, bind, Except.bind]

end ShapeCheck
