import ShapeCheck.Compile.Context

set_option autoImplicit false

/-! # Static keys

Which keys the values of a type can have is read off its structure. An object has its declared keys.
A union or intersection has the keys of all its members, and a reference those of the body and of
the bases. Index signatures, `any`, arrays and tuples leave the set of keys open.

Both walks here follow references and parameters for at most `maxResolutionSteps` steps.

Main fact: `mem_gatherKeys` (gathered keys are those of the parts).
-/

namespace ShapeCheck

/-- The keys that a type can have, ascending; `none` if any key is possible. -/
abbrev KeySet := Option (List String)

/-- The keys of an object, those of symbols left out. -/
def ObjectShape.keys (shape : ObjectShape) : List String :=
  Text.sortUnique ((shape.properties.filter (!·.symbolKeyed)).map Property.name)

/-- Adds the keys of several types, up to the first one whose keys are open. -/
def gatherKeys (keysOf : TypeId → Except CompileError KeySet) (known : List String) :
    List TypeId → Except CompileError KeySet
  | [] => .ok (some known)
  | type :: rest => do
    match ← keysOf type with
    | some keys => gatherKeys keysOf (Text.sortUnique (known ++ keys)) rest
    | none => return none

theorem mem_gatherKeys {keysOf : TypeId → Except CompileError KeySet} {known keys : List String}
    {types : List TypeId} (h : gatherKeys keysOf known types = .ok (some keys)) (key : String) :
    key ∈ keys ↔
      key ∈ known ∨ ∃ type ∈ types, ∃ part, keysOf type = .ok (some part) ∧ key ∈ part := by
  induction types generalizing known with
  | nil =>
    cases h
    simp
  | cons type rest ih =>
    unfold gatherKeys at h
    cases made : keysOf type with
    | error e =>
      rw [made] at h
      cases h
    | ok part? =>
      rw [made] at h
      cases part? with
      | none => cases h
      | some part =>
        rw [ih h, Text.mem_sortUnique]
        simp [made, or_assoc]

/-! ## The keys of a type -/

/-- The name of a type in an error, or its number if it has no name. A type without end stays an
error. -/
def Context.describe (ctx : Context) (depth : Nat) (type : TypeId) : Except CompileError String :=
  match ctx.nameOf depth type with
  | .ok name => .ok name
  | .error (.endless inner) => .error (.endless inner)
  | .error _ => .ok ("#" ++ toString type.index)

/-- The keys of a type, for a number of steps. -/
def collectKeysWithin (depth : Nat) : Nat → Context → TypeId → Except CompileError KeySet
  | 0, ctx, type => do
    throw (.instantiationTooDeep (← ctx.describe depth type) maxResolutionSteps)
  | steps + 1, ctx, type => do
    match ← ctx.arena.lookup type with
    | .object shape => return if shape.index.isNone then some shape.keys else none
    | .union members => gatherKeys (collectKeysWithin depth steps ctx) [] members
    | .intersection members => gatherKeys (collectKeysWithin depth steps ctx) [] members
    | .reference target arguments => do
      let definition ← ctx.arena.target type target
      let inside ← ctx.enter definition arguments
      let body ← definition.requireBody
      gatherKeys (collectKeysWithin depth steps inside) [] (body :: definition.bases)
    | .parameter id => do
      let (target, visible) ← ctx.resolve id
      collectKeysWithin depth steps visible target
    -- the keys are open
    | .keyword .any | .keyword .unknown | .array _ | .tuple _ | .indexAccess _ _ => return none
    -- values of all other types have no keys
    | _ => return some []

/-- The keys of a type. -/
def Context.collectKeys (ctx : Context) (depth : Nat) (type : TypeId) :
    Except CompileError KeySet :=
  collectKeysWithin depth maxResolutionSteps ctx type

/-! ## The keys that an index type selects -/

/-- A key that an indexed access selects. -/
inductive IndexKey
  | name (text : String)
  | number (value : Double)
  | anyString
  | anyNumber
  deriving DecidableEq, Repr, Inhabited

namespace IndexKey

/-- The key in messages. -/
def text : IndexKey → String
  | name text => Text.quoteVisible text
  | number value => value.text
  | anyString => "string"
  | anyNumber => "number"

/-- Two keys select the same. Numbers are compared as numbers. -/
def sameAs : IndexKey → IndexKey → Bool
  | number x, number y => x.equals y
  | a, b => a == b

/-- Adds keys that are not there yet. -/
def addAll (known keys : List IndexKey) : List IndexKey :=
  keys.foldl (fun known key => if known.any key.sameAs then known else known ++ [key]) known

end IndexKey

/-- The keys that an index type selects, for a number of steps. -/
def indexKeysWithin (depth : Nat) : Nat → Context → TypeId → Except CompileError (List IndexKey)
  | 0, _, type =>
    .error (.instantiationTooDeep ("#" ++ toString type.index) maxResolutionSteps)
  | steps + 1, ctx, type => do
    match ← ctx.arena.lookup type with
    | .stringLiteral text => return [.name text]
    | .numberLiteral value => return [.number value]
    | .keyword .string => return [.anyString]
    | .keyword .number => return [.anyNumber]
    | .union members =>
      members.foldlM (fun known member => do
        return IndexKey.addAll known (← indexKeysWithin depth steps ctx member)) []
    | .parameter id => do
      let (target, visible) ← ctx.resolve id
      indexKeysWithin depth steps visible target
    | .reference target arguments => do
      let definition ← ctx.arena.target type target
      let body ← definition.requireBody
      let inside ← ctx.enter definition arguments
      indexKeysWithin depth steps inside body
    | .keyof operand =>
      return match ← ctx.collectKeys depth operand with
        | some keys => keys.map IndexKey.name
        | none => [.anyString, .anyNumber]
    | other => throw (.unsupportedType type (other.kindName ++ " used as an index type"))

/-- The keys that an index type selects. -/
def Context.indexKeys (ctx : Context) (depth : Nat) (type : TypeId) :
    Except CompileError (List IndexKey) :=
  indexKeysWithin depth maxResolutionSteps ctx type

/-! ## Inherited members -/

/-- Adds the inherited members of a name that is not there yet, and an inherited index signature if
there is none. -/
def ObjectShape.inherit (shape inherited : ObjectShape) : ObjectShape where
  properties := inherited.properties.foldl (fun known property =>
    if known.any (·.name == property.name) then known else known ++ [property]) shape.properties
  index := shape.index <|> inherited.index

/-- All members of a definition, the nearest declaration first, for a number of steps. -/
def mergedShapeWithin (arena : Arena) : Nat → Definition → Except CompileError ObjectShape
  | 0, definition => .error (.instantiationTooDeep definition.name maxResolutionSteps)
  | steps + 1, definition => do
    let body ← definition.requireBody
    match arena.lookup? body with
    | some (.object own) =>
      definition.bases.foldlM (fun shape base =>
        match arena.lookup? base with
        | some (.reference target _) => do
          let inherited ← mergedShapeWithin arena steps (← arena.target base target)
          return shape.inherit inherited
        | _ => throw (.unsupportedType base "base that is not a type reference")) own
    | _ =>
      throw (.unsupportedType body
        ("`" ++ definition.name ++ "` extends other types but its body is not an object"))

/-- All members of a definition, its own and those of its bases. Members of bases are written in the
parameters of the bases, which the instantiation of the definition binds as well. -/
def Arena.mergedShape (arena : Arena) (definition : Definition) : Except CompileError ObjectShape :=
  mergedShapeWithin arena maxResolutionSteps definition

end ShapeCheck
