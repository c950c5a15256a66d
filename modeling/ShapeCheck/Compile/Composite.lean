import ShapeCheck.Compile.Keys
import ShapeCheck.Compile.Leaf

set_option autoImplicit false

/-! # Composite types

The predicate of a composite type calls those of its parts. The definitions here say how, for any
function `compile` that builds the predicate of a part and returns its name; `depth` is the depth
within which names are spelled.
-/

namespace ShapeCheck

/-- Applies a predicate to the value to check. -/
def Expr.callOn (name : String) : Expr := .call name .parameter

/-- Rejects a value with a key outside of a set. -/
def exactKeysLoop (keys : List String) : Stmt :=
  .forKeys Expr.keyName .parameter [.rejectUnless (.oneOf (.var Expr.keyName) keys)]

/-- Applies a predicate to the member under the variable of a loop. -/
def memberCheck (name binder : String) : Stmt :=
  .rejectUnless (.call name (.index .parameter (.var binder)))

section
variable (depth : Nat) (compile : Context → TypeId → Build String) (ctx : Context)

/-- The predicate of a part, which accepts `undefined` too if the part is optional. -/
def compilePart (type : TypeId) (optional : Bool) : Build String := do
  let name ← compile ctx type
  if optional then Build.optional name else return name

/-! ## Arrays and tuples -/

/-- An array, and every item. Items that may be anything are not looked at. -/
def arrayBody (element : TypeId) : Build (List Stmt) := do
  let name ← compile ctx element
  if (← get).isAlwaysTrue name then return [.result (.isArray .parameter)]
  else
    return [.rejectUnless (.isArray .parameter),
      .forIndex Expr.indexName .parameter [memberCheck name Expr.indexName],
      .result (.bool true)]

/-- The length of a tuple is one that its positions allow. -/
def lengthTests (elements : List TupleElement) : List Expr :=
  let least := Expr.number (Double.ofNat (TupleElement.minLength elements))
  let most := Expr.number (Double.ofNat elements.length)
  if TupleElement.minLength elements = elements.length then
    [.strictEq (.length .parameter) most]
  else [.compare .ge (.length .parameter) least, .compare .le (.length .parameter) most]

/-- The tests of the positions of a tuple, from a position on. -/
def elementTests : Nat → List TupleElement → Build (List Expr)
  | _, [] => return []
  | position, element :: rest => do
    let name ← compilePart compile ctx element.type element.optional
    let test := Expr.call name (.index .parameter (.number (Double.ofNat position)))
    return test :: (← elementTests (position + 1) rest)

/-- An array of an allowed length, and every position. -/
def tupleCheck (elements : List TupleElement) : Build Expr := do
  let tests ← elementTests compile ctx 0 elements
  return .and (.isArray .parameter :: lengthTests elements ++ tests)

/-! ## Objects -/

/-- The test of a member; none for those that are not checked. -/
def propertyTest? (property : Property) : Build (Option Expr) := do
  if property.symbolKeyed then return none
  else if property.method then
    if ctx.options.ignoreMethods then return none else throw (.methodDisallowed property.name)
  else
    match property.type with
    | none => throw (.unsupportedProperty property.name)
    | some type =>
      let name ← compile ctx type
      let value := Expr.member .parameter property.name
      let check := Expr.call name value
      return some <|
        if property.optional then .or [.strictEq value .undefined, check]
        else .and [.hasName property.name .parameter, check]

/-- The loop over the keys of an object, if there is one: every value has the type of the index
signature, or, without such a signature, every key is declared if that is asked. -/
def keyLoop (shape : ObjectShape) : Build (List Stmt) := do
  match shape.index with
  | some type =>
    let name ← compile ctx type
    return if (← get).isAlwaysTrue name then []
      else [.forKeys Expr.keyName .parameter [memberCheck name Expr.keyName]]
  | none => return if ctx.exact then [exactKeysLoop shape.keys] else []

/-- An object that is neither null nor an array, every member, then the keys. -/
def objectBody (shape : ObjectShape) : Build (List Stmt) := do
  let tests ← shape.properties.filterMapM (propertyTest? compile ctx)
  let all := Expr.and (Expr.plainObjectTests .parameter ++ tests)
  let loops ← keyLoop compile ctx shape
  -- without a loop the tests are a single expression, which can be written out at calls
  return if loops.isEmpty then [.result all]
    else .rejectUnless all :: loops ++ [.result (.bool true)]

/-! ## Unions and intersections -/

/-- Calls of the predicates of several types, each predicate once. -/
def memberCalls (members : List TypeId) : Build (List Expr) := do
  return (← members.mapM (compile ctx)).eraseDups.map Expr.callOn

/-- Some member. A union without members accepts everything. -/
def unionCheck (members : List TypeId) : Build Expr := do
  if members.isEmpty then return .bool true
  else return .anyOf (← memberCalls compile ctx members)

/-- The check for keys outside of a set. What is not an object passes: other checks decide on
that. -/
def exactKeysPredicate (keys : List String) : Build String :=
  Build.ensure (exactKeysName keys) none do
    return [.ifThen
        (.or [.not (.typeOfIs .parameter "object"), .strictEq .parameter .null])
        [.result (.bool true)],
      exactKeysLoop keys, .result (.bool true)]

/-- All members. A member cannot know the keys of the others, so members are compiled without the
check for superfluous keys, and it is made once for the keys of all. -/
def intersectionCheck (type : TypeId) (members : List TypeId) : Build Expr := do
  let calls ← memberCalls compile (ctx.withExact false) members
  if ctx.exact then
    match ← ctx.collectKeys depth type with
    | some keys => return .and (calls ++ [.callOn (← exactKeysPredicate keys)])
    | none => return .and calls
  else return .and calls

/-! ## Keys -/

/-- One of the keys of a type, or any text or number if the keys are open. -/
def keyofCheck (operand : TypeId) : Build Expr := do
  match ← ctx.collectKeys depth operand with
  | some keys => return .or (keys.map fun key => .strictEq .parameter (.string key))
  | none => return .or [.typeOfIs .parameter "string", .typeOfIs .parameter "number"]

/-! ## References -/

/-- The body of the definition. One that extends others is checked as a single object with all
members. -/
def referenceBody (definition : Definition) (arguments : List TypeId) : Build (List Stmt) := do
  let inside ← ctx.enter definition arguments
  let body ← definition.requireBody
  if definition.bases.isEmpty then return [.result (.callOn (← compile inside body))]
  else objectBody compile inside (← ctx.arena.mergedShape definition)

/-! ## Indexed access -/

/-- The first list that is not empty. -/
def firstNonempty {α : Type} (find : TypeId → Build (List α)) : List TypeId → Build (List α)
  | [] => return []
  | type :: rest => do
    let found ← find type
    if found.isEmpty then firstNonempty find rest else return found

/-- The predicates of the members of an object that a key selects. A method has no predicate. -/
def objectMembers (shape : ObjectShape) (key : IndexKey) : Build (List String) := do
  let declared :=
    match key with
    | .name name => shape.property? name
    | .number x => shape.property? x.text
    | .anyString | .anyNumber => none
  match declared with
  | some property =>
    if property.method then return []
    else
      match property.type with
      | none => throw (.unsupportedProperty property.name)
      | some type => return [← compilePart compile ctx type property.optional]
  | none =>
    match shape.index with
    | some type => return [← compile ctx type]
    | none => return []

/-- The predicates of the items of an array that a key selects. -/
def arrayMembers (element : TypeId) (key : IndexKey) : Build (List String) := do
  match key with
  | .number _ | .anyNumber => return [← compile ctx element]
  | .name "length" => return [← compile ctx (.ofKeyword .number)]
  | _ => return []

/-- The predicates of the positions of a tuple that a key selects. -/
def tupleMembers (elements : List TupleElement) (key : IndexKey) : Build (List String) := do
  match key with
  | .number x =>
    match if x.isPosition then elements[x.toPosition]? else none with
    | some element => return [← compilePart compile ctx element.type element.optional]
    | none => return []
  | .anyNumber => return (← elements.mapM fun element => compile ctx element.type).eraseDups
  | .name "length" => return [← compile ctx (.ofKeyword .number)]
  | _ => return []

end

/-- The predicates of the members of a type that a key selects, for a number of steps; none if the
type has no such member. Of the members of an intersection, and of a body and its bases, the first
that has the key decides. -/
def membersWithin (compile : Context → TypeId → Build String) (key : IndexKey) :
    Nat → Context → TypeId → Build (List String)
  | 0, _, type => throw (.instantiationTooDeep ("#" ++ toString type.index) maxResolutionSteps)
  | steps + 1, ctx, type => do
    match ← ctx.arena.lookup type with
    | .object shape => objectMembers compile ctx shape key
    | .array element => arrayMembers compile ctx element key
    | .tuple elements => tupleMembers compile ctx elements key
    | .reference target arguments => do
      let definition ← ctx.arena.target type target
      let inside ← ctx.enter definition arguments
      let body ← definition.requireBody
      firstNonempty (membersWithin compile key steps inside) (body :: definition.bases)
    | .parameter id => do
      let (target, visible) ← ctx.resolve id
      membersWithin compile key steps visible target
    | .union members =>
      return (← members.mapM (membersWithin compile key steps ctx)).flatten.eraseDups
    | .intersection members => firstNonempty (membersWithin compile key steps ctx) members
    | _ => return []

section
variable (depth : Nat) (compile : Context → TypeId → Build String) (ctx : Context)

/-- The predicates of the members that a key selects, of which there has to be one. -/
def selectedMembers (type whole : TypeId) (key : IndexKey) : Build (List String) := do
  let found ← membersWithin compile key maxResolutionSteps ctx whole
  if found.isEmpty then
    let name ← ctx.nameOf depth type
    throw (.unsupportedType type ("indexed access `" ++ name ++ "`: no member " ++ key.text))
  else return found

/-- The predicate of the member that an index selects, or one that accepts what some of the selected
members accept. -/
def compileIndexAccess (type whole index : TypeId) : Build String := do
  let keys ← ctx.indexKeys depth index
  let found ← keys.mapM (selectedMembers depth compile ctx type whole)
  match found.flatten.eraseDups with
  | [] => throw (.unsupportedType type "indexed access with an empty index")
  -- a single predicate serves as it is, whatever the access is called
  | [name] => return name
  | names =>
    Build.ensureExpr (← ctx.nameOf depth type) none do return .or (names.map Expr.callOn)

/-! ## Dispatch -/

/-- Builds the predicate of a descriptor and returns its name. -/
def compileDescriptor (type : TypeId) (descriptor : Descriptor) : Build String := do
  match descriptor.leaf? with
  | some leaf => Build.ensureExpr leaf.name leaf.reason do return leaf.check
  | none =>
    match descriptor with
    | .array element => Build.ensure (← ctx.nameOf depth type) none (arrayBody compile ctx element)
    | .tuple elements =>
      Build.ensureExpr (← ctx.nameOf depth type) none (tupleCheck compile ctx elements)
    | .object shape => Build.ensure (← ctx.nameOf depth type) none (objectBody compile ctx shape)
    | .union members =>
      Build.ensureExpr (← ctx.nameOf depth type) none (unionCheck compile ctx members)
    | .intersection members =>
      Build.ensureExpr (← ctx.nameOf depth type) none
        (intersectionCheck depth compile ctx type members)
    | .reference target arguments => do
      let definition ← ctx.arena.target type target
      Build.ensure (← ctx.nameOf depth type) none (referenceBody compile ctx definition arguments)
    | .parameter id => do
      let (target, visible) ← ctx.resolve id
      compile visible target
    | .indexAccess whole index => compileIndexAccess depth compile ctx type whole index
    | .keyof operand =>
      Build.ensureExpr (← ctx.nameOf depth type) none (keyofCheck depth ctx operand)
    | other => throw (.unsupportedType type other.kindName)

end

end ShapeCheck
