import ShapeCheck.Compile.Basic
import ShapeCheck.Proofs.Sessions.Keys
import ShapeCheck.Proofs.Termination.Selection

set_option autoImplicit false

/-! # Strategies in place

The compilation of every kind of type as a step in place. Instantiations are pushed and popped, hidden
and restored, and the check for superfluous keys is turned off and on again, around the steps for parts;
these may fail anywhere. Each strategy mirrors the one that passes the context down, for any steps
`compile` that do so for the parts.

Main fact: `Session.compile_leaves_context_intact`.
-/

namespace ShapeCheck

/-! ## Composite types -/

namespace Act

/-- Builds the predicate that accepts `undefined` and what another one accepts. -/
def optional (inner : String) : Act String :=
  ensureExpr (optionalName inner) none do
    return .or [.strictEq .parameter .undefined, .call inner .parameter]

section
variable (arena : Arena) (depth : Nat) (compile : TypeId → Act String)

/-- The predicate of a part, which accepts `undefined` too if the part is optional. -/
def compilePart (type : TypeId) (isOptional : Bool) : Act String := do
  let name ← compile type
  if isOptional then optional name else return name

/-- An array, and every item. -/
def arrayBody (element : TypeId) : Act (List Stmt) := do
  let name ← compile element
  if (← registry).isAlwaysTrue name then return [.result (.isArray .parameter)]
  else
    return [.rejectUnless (.isArray .parameter),
      .forIndex Expr.indexName .parameter [memberCheck name Expr.indexName],
      .result (.bool true)]

/-- The tests of the positions of a tuple, from a position on. -/
def elementTests : Nat → List TupleElement → Act (List Expr)
  | _, [] => return []
  | position, element :: rest => do
    let name ← compilePart compile element.type element.optional
    let test := Expr.call name (.index .parameter (.number (Double.ofNat position)))
    return test :: (← elementTests (position + 1) rest)

/-- An array of an allowed length, and every position. -/
def tupleCheck (elements : List TupleElement) : Act Expr := do
  let tests ← elementTests compile 0 elements
  return .and (.isArray .parameter :: lengthTests elements ++ tests)

/-- The test of a member; none for those that are not checked. -/
def propertyTest? (property : Property) : Act (Option Expr) := do
  if property.symbolKeyed then return none
  else if property.method then
    if (← options).ignoreMethods then return none else throw (.methodDisallowed property.name)
  else
    match property.type with
    | none => throw (.unsupportedProperty property.name)
    | some type =>
      let name ← compile type
      let value := Expr.member .parameter property.name
      let check := Expr.call name value
      return some <|
        if property.optional then .or [.strictEq value .undefined, check]
        else .and [.hasName property.name .parameter, check]

/-- The loop over the keys of an object, if there is one. -/
def keyLoop (shape : ObjectShape) : Act (List Stmt) := do
  match shape.index with
  | some type =>
    let name ← compile type
    return if (← registry).isAlwaysTrue name then []
      else [.forKeys Expr.keyName .parameter [memberCheck name Expr.keyName]]
  | none => return if (← options).superfluousPropertyCheck then [exactKeysLoop shape.keys] else []

/-- An object that is neither null nor an array, every member, then the keys. -/
def objectBody (shape : ObjectShape) : Act (List Stmt) := do
  let tests ← shape.properties.filterMapM (propertyTest? compile)
  let all := Expr.and (Expr.plainObjectTests .parameter ++ tests)
  let loops ← keyLoop compile shape
  return if loops.isEmpty then [.result all]
    else .rejectUnless all :: loops ++ [.result (.bool true)]

/-- Calls of the predicates of several types, each predicate once. -/
def memberCalls (members : List TypeId) : Act (List Expr) := do
  return (← members.mapM compile).eraseDups.map Expr.callOn

/-- Some member. -/
def unionCheck (members : List TypeId) : Act Expr := do
  if members.isEmpty then return .bool true
  else return .anyOf (← memberCalls compile members)

/-- The check for keys outside of a set. -/
def exactKeysPredicate (keys : List String) : Act String :=
  ensure (exactKeysName keys) none do
    return [.ifThen
        (.or [.not (.typeOfIs .parameter "object"), .strictEq .parameter .null])
        [.result (.bool true)],
      exactKeysLoop keys, .result (.bool true)]

/-- All members, compiled without the check for superfluous keys, which is made once for all keys. -/
def intersectionCheck (type : TypeId) (members : List TypeId) : Act Expr := do
  let exact := (← options).superfluousPropertyCheck
  let calls ← withExact false (memberCalls compile members)
  if exact then
    match ← collectKeys arena depth type with
    | some keys => return .and (calls ++ [.callOn (← exactKeysPredicate keys)])
    | none => return .and calls
  else return .and calls

/-- One of the keys of a type, or any text or number if the keys are open. -/
def keyofCheck (operand : TypeId) : Act Expr := do
  match ← collectKeys arena depth operand with
  | some keys => return .or (keys.map fun key => .strictEq .parameter (.string key))
  | none => return .or [.typeOfIs .parameter "string", .typeOfIs .parameter "number"]

/-- The body of the definition, in its instantiation. -/
def referenceBody (definition : Definition) (arguments : List TypeId) : Act (List Stmt) :=
  withInstantiation arena definition arguments do
    let body ← definition.requireBody
    if definition.bases.isEmpty then return [.result (.callOn (← compile body))]
    else objectBody compile (← arena.mergedShape definition)

/-! ## Indexed access -/

/-- The first list that is not empty. -/
def firstNonempty {α : Type} (find : TypeId → Act (List α)) : List TypeId → Act (List α)
  | [] => return []
  | type :: rest => do
    let found ← find type
    if found.isEmpty then firstNonempty find rest else return found

/-- The predicates of the members of an object that a key selects. -/
def objectMembers (shape : ObjectShape) (key : IndexKey) : Act (List String) := do
  match shape.declared? key with
  | some property =>
    if property.method then return []
    else
      match property.type with
      | none => throw (.unsupportedProperty property.name)
      | some type => return [← compilePart compile type property.optional]
  | none =>
    match shape.index with
    | some type => return [← compile type]
    | none => return []

/-- The predicates of the items of an array that a key selects. -/
def arrayMembers (element : TypeId) (key : IndexKey) : Act (List String) := do
  match key with
  | .number _ | .anyNumber => return [← compile element]
  | .name "length" => return [← compile (.ofKeyword .number)]
  | _ => return []

/-- The predicates of the positions of a tuple that a key selects. -/
def tupleMembers (elements : List TupleElement) (key : IndexKey) : Act (List String) := do
  match key with
  | .number x =>
    match if x.isPosition then elements[x.toPosition]? else none with
    | some element => return [← compilePart compile element.type element.optional]
    | none => return []
  | .anyNumber => return (← elements.mapM fun element => compile element.type).eraseDups
  | .name "length" => return [← compile (.ofKeyword .number)]
  | _ => return []

/-- The predicates of the members of a type that a key selects, for a number of steps. -/
def membersWithin (key : IndexKey) : Nat → TypeId → Act (List String)
  | 0, type => throw (.instantiationTooDeep ("#" ++ toString type.index) maxResolutionSteps)
  | steps + 1, type => do
    match ← arena.lookup type with
    | .object shape => objectMembers compile shape key
    | .array element => arrayMembers compile element key
    | .tuple elements => tupleMembers compile elements key
    | .reference target arguments => do
      let definition ← arena.target type target
      withInstantiation arena definition arguments do
        let body ← definition.requireBody
        firstNonempty (membersWithin key steps) (body :: definition.bases)
    | .parameter id => do
      let (target, limit) ← resolve arena id
      withFrames limit (membersWithin key steps target)
    | .union members => return (← members.mapM (membersWithin key steps)).flatten.eraseDups
    | .intersection members => firstNonempty (membersWithin key steps) members
    | _ => return []

/-- The predicates of the members that a key selects, of which there has to be one. -/
def selectedMembers (type whole : TypeId) (key : IndexKey) : Act (List String) := do
  let found ← membersWithin arena compile key maxResolutionSteps whole
  if found.isEmpty then
    let name ← nameOf arena depth type
    throw (.unsupportedType type ("indexed access `" ++ name ++ "`: no member " ++ key.text))
  else return found

/-- The predicate of the member that an index selects, or one that accepts what some of the selected
members accept. -/
def compileIndexAccess (type whole index : TypeId) : Act String := do
  let keys ← indexKeys arena depth index
  let found ← keys.mapM (selectedMembers arena depth compile type whole)
  match found.flatten.eraseDups with
  | [] => throw (.unsupportedType type "indexed access with an empty index")
  | [name] => return name
  | names =>
    ensureExpr (← nameOf arena depth type) none do return .or (names.map Expr.callOn)

/-! ## Dispatch -/

/-- Builds the predicate of a descriptor and returns its name. -/
def compileDescriptor (type : TypeId) (descriptor : Descriptor) : Act String := do
  match descriptor.leaf? with
  | some leaf => ensureExpr leaf.name leaf.reason do return leaf.check
  | none =>
    match descriptor with
    | .array element => ensure (← nameOf arena depth type) none (arrayBody compile element)
    | .tuple elements => ensureExpr (← nameOf arena depth type) none (tupleCheck compile elements)
    | .object shape => ensure (← nameOf arena depth type) none (objectBody compile shape)
    | .union members => ensureExpr (← nameOf arena depth type) none (unionCheck compile members)
    | .intersection members =>
      ensureExpr (← nameOf arena depth type) none (intersectionCheck arena depth compile type members)
    | .reference target arguments => do
      let definition ← arena.target type target
      ensure (← nameOf arena depth type) none (referenceBody arena compile definition arguments)
    | .parameter id => do
      let (target, limit) ← resolve arena id
      withFrames limit (compile target)
    | .indexAccess whole index => compileIndexAccess arena depth compile type whole index
    | .keyof operand => ensureExpr (← nameOf arena depth type) none (keyofCheck arena depth operand)
    | other => throw (.unsupportedType type other.kindName)

end

/-- Builds the predicate of a type within a depth, and returns its name. -/
def compileWithin (arena : Arena) : Nat → TypeId → Act String
  | 0, type => throw (.endless type)
  | depth + 1, type => do
    compileDescriptor arena depth (compileWithin arena depth) type (← arena.lookup type)

end Act

/-! ## Mirrors of the strategies -/

namespace Mirrors

section
variable {ctx : Context} {depth : Nat} {act : TypeId → Act String}
  {compile : Context → TypeId → Build String}

theorem optional (inner : String) : Mirrors ctx (Act.optional inner) (Build.optional inner) :=
  ensureExpr (.pure _)

section
variable (parts : ∀ type, Mirrors ctx (act type) (compile ctx type))
include parts

theorem compilePart (type : TypeId) (isOptional : Bool) :
    Mirrors ctx (Act.compilePart act type isOptional) (ShapeCheck.compilePart compile ctx type isOptional) := by
  refine (parts type).bind fun name => ?_
  cases isOptional
  · exact .pure name
  · exact optional name

theorem arrayBody (element : TypeId) :
    Mirrors ctx (Act.arrayBody act element) (ShapeCheck.arrayBody compile ctx element) := by
  refine (parts element).bind fun name => registry.bind fun r => ?_
  split <;> exact .pure _

theorem elementTests (elements : List TupleElement) (position : Nat) :
    Mirrors ctx (Act.elementTests act position elements)
      (ShapeCheck.elementTests compile ctx position elements) := by
  induction elements generalizing position with
  | nil => exact .pure []
  | cons element rest ih =>
    refine (compilePart parts element.type element.optional).bind fun name => ?_
    exact (ih (position + 1)).bind fun tests => .pure _

theorem tupleCheck (elements : List TupleElement) :
    Mirrors ctx (Act.tupleCheck act elements) (ShapeCheck.tupleCheck compile ctx elements) :=
  (elementTests parts elements 0).bind fun _ => .pure _

theorem propertyTest? (property : Property) :
    Mirrors ctx (Act.propertyTest? act property) (ShapeCheck.propertyTest? compile ctx property) := by
  unfold Act.propertyTest? ShapeCheck.propertyTest?
  split
  · exact .pure none
  · split
    · refine options_bind ?_
      split
      · exact .pure none
      · exact .throw _
    · cases property.type with
      | none => exact .throw _
      | some type => exact (parts type).bind fun name => .pure _

theorem keyLoop (shape : ObjectShape) :
    Mirrors ctx (Act.keyLoop act shape) (ShapeCheck.keyLoop compile ctx shape) := by
  unfold Act.keyLoop ShapeCheck.keyLoop
  cases shape.index with
  | some type => exact (parts type).bind fun name => registry.bind fun r => .pure _
  | none => exact options_bind (.pure _)

theorem objectBody (shape : ObjectShape) :
    Mirrors ctx (Act.objectBody act shape) (ShapeCheck.objectBody compile ctx shape) :=
  (filterMapM shape.properties (propertyTest? parts)).bind fun _ =>
    (keyLoop parts shape).bind fun _ => .pure _

theorem memberCalls (members : List TypeId) :
    Mirrors ctx (Act.memberCalls act members) (ShapeCheck.memberCalls compile ctx members) :=
  (mapM members parts).bind fun _ => .pure _

theorem unionCheck (members : List TypeId) :
    Mirrors ctx (Act.unionCheck act members) (ShapeCheck.unionCheck compile ctx members) := by
  unfold Act.unionCheck ShapeCheck.unionCheck
  split
  · exact .pure _
  · exact (memberCalls parts members).bind fun _ => .pure _

theorem objectMembers (shape : ObjectShape) (key : IndexKey) :
    Mirrors ctx (Act.objectMembers act shape key) (ShapeCheck.objectMembers compile ctx shape key) := by
  rw [objectMembers_eq]
  unfold Act.objectMembers
  cases shape.declared? key with
  | some property =>
    dsimp only
    split
    · exact .pure []
    · cases property.type with
      | none => exact .throw _
      | some type => exact (compilePart parts type property.optional).bind fun name => .pure [name]
  | none =>
    cases shape.index with
    | some type => exact (parts type).bind fun name => .pure [name]
    | none => exact .pure []

theorem arrayMembers (element : TypeId) (key : IndexKey) :
    Mirrors ctx (Act.arrayMembers act element key) (ShapeCheck.arrayMembers compile ctx element key) := by
  cases key with
  | number | anyNumber => exact (parts element).bind fun name => .pure [name]
  | anyString => exact .pure []
  | name text =>
    by_cases length : text = "length"
    · subst length
      exact (parts _).bind fun name => .pure [name]
    · have none : Act.arrayMembers act element (.name text) = Pure.pure [] := by
        unfold Act.arrayMembers
        split <;> simp_all
      have none' : ShapeCheck.arrayMembers compile ctx element (.name text) = Pure.pure [] := by
        unfold ShapeCheck.arrayMembers
        split <;> simp_all
      rw [none, none']
      exact .pure []

theorem tupleMembers (elements : List TupleElement) (key : IndexKey) :
    Mirrors ctx (Act.tupleMembers act elements key) (ShapeCheck.tupleMembers compile ctx elements key) := by
  cases key with
  | number x =>
    unfold Act.tupleMembers ShapeCheck.tupleMembers
    dsimp only
    cases (if x.isPosition then elements[x.toPosition]? else none) with
    | some element =>
      exact (compilePart parts element.type element.optional).bind fun name => .pure [name]
    | none => exact .pure []
  | anyNumber =>
    exact (mapM elements fun element => parts element.type).bind fun names => .pure names.eraseDups
  | anyString => exact .pure []
  | name text =>
    by_cases length : text = "length"
    · subst length
      exact (parts _).bind fun name => .pure [name]
    · have none : Act.tupleMembers act elements (.name text) = Pure.pure [] := by
        unfold Act.tupleMembers
        split <;> simp_all
      have none' : ShapeCheck.tupleMembers compile ctx elements (.name text) = Pure.pure [] := by
        unfold ShapeCheck.tupleMembers
        split <;> simp_all
      rw [none, none']
      exact .pure []

end

theorem firstNonempty {α : Type} {find : TypeId → Act (List α)} {find' : TypeId → Build (List α)}
    (h : ∀ type, Mirrors ctx (find type) (find' type)) (types : List TypeId) :
    Mirrors ctx (Act.firstNonempty find types) (ShapeCheck.firstNonempty find' types) := by
  induction types with
  | nil => exact .pure []
  | cons type rest ih =>
    refine (h type).bind fun found => ?_
    split
    · exact ih
    · exact .pure found

theorem keyofCheck (operand : TypeId) :
    Mirrors ctx (Act.keyofCheck ctx.arena depth operand) (ShapeCheck.keyofCheck depth ctx operand) := by
  refine (collectKeys operand).bind fun keys? => ?_
  cases keys? <;> exact .pure _

end

section
variable {arena : Arena} {depth : Nat} {act : TypeId → Act String}
  {compile : Context → TypeId → Build String}
  (parts : ∀ ctx : Context, ctx.arena = arena → ∀ type, Mirrors ctx (act type) (compile ctx type))
  {ctx : Context} (same : ctx.arena = arena)
include parts same

/-- The members are compiled with the flag off; the keys are those of the whole, with the flag as before. -/
theorem intersectionCheck (type : TypeId) (members : List TypeId) :
    Mirrors ctx (Act.intersectionCheck arena depth act type members)
      (ShapeCheck.intersectionCheck depth compile ctx type members) := by
  subst same
  refine options_bind ?_
  refine (withExact (memberCalls (parts (ctx.withExact false) rfl) members)).bind fun calls => ?_
  show Mirrors ctx _ (if ctx.options.superfluousPropertyCheck = true then _ else _)
  split
  · refine (collectKeys type).bind fun keys? => ?_
    cases keys? with
    | none => exact .pure _
    | some keys => exact (ensure (.pure _)).bind fun _ => .pure _
  · exact .pure _

theorem referenceBody (definition : Definition) (arguments : List TypeId) :
    Mirrors ctx (Act.referenceBody arena act definition arguments)
      (ShapeCheck.referenceBody compile ctx definition arguments) := by
  subst same
  refine withInstantiation fun inside same => (Mirrors.lift _).bind fun body => ?_
  split
  · exact (parts inside same body).bind fun name => .pure _
  · exact (Mirrors.lift _).bind fun shape => objectBody (parts inside same) shape

theorem membersWithin (key : IndexKey) (steps : Nat) (type : TypeId) :
    Mirrors ctx (Act.membersWithin arena act key steps type)
      (ShapeCheck.membersWithin compile key steps ctx type) := by
  induction steps generalizing ctx type with
  | zero => exact .throw _
  | succ steps ih =>
    subst same
    refine (Mirrors.lift _).bind fun descriptor => ?_
    cases descriptor with
    | object shape => exact objectMembers (parts ctx rfl) shape key
    | array element => exact arrayMembers (parts ctx rfl) element key
    | tuple elements => exact tupleMembers (parts ctx rfl) elements key
    | reference target arguments =>
      refine (Mirrors.lift _).bind fun definition => withInstantiation fun inside same => ?_
      exact (Mirrors.lift _).bind fun body => firstNonempty (ih same) _
    | parameter id => exact resolve fun target inside same => ih same target
    | union members => exact (mapM members (ih rfl)).bind fun found => .pure _
    | intersection members => exact firstNonempty (ih rfl) members
    | _ => exact .pure []

theorem compileIndexAccess (type whole index : TypeId) :
    Mirrors ctx (Act.compileIndexAccess arena depth act type whole index)
      (ShapeCheck.compileIndexAccess depth compile ctx type whole index) := by
  have members (key : IndexKey) : Mirrors ctx (Act.selectedMembers arena depth act type whole key)
      (ShapeCheck.selectedMembers depth compile ctx type whole key) := by
    refine (membersWithin parts same key maxResolutionSteps whole).bind fun found => ?_
    subst same
    split
    · exact (nameOf depth type).bind fun name => .throw _
    · exact .pure found
  subst same
  refine (indexKeys index).bind fun keys => (mapM keys members).bind fun found => ?_
  rcases found.flatten.eraseDups with _ | ⟨first, _ | ⟨second, rest⟩⟩
  · exact .throw _
  · exact .pure _
  · exact (nameOf depth type).bind fun name => ensureExpr (.pure _)

theorem compileDescriptor (type : TypeId) (descriptor : Descriptor) :
    Mirrors ctx (Act.compileDescriptor arena depth act type descriptor)
      (ShapeCheck.compileDescriptor depth compile ctx type descriptor) := by
  have here := parts ctx same
  unfold Act.compileDescriptor ShapeCheck.compileDescriptor
  cases descriptor.leaf? with
  | some leaf => exact ensureExpr (.pure _)
  | none =>
    cases descriptor with
    | array element =>
      subst same
      exact (nameOf depth type).bind fun name => ensure (arrayBody here element)
    | tuple elements =>
      subst same
      exact (nameOf depth type).bind fun name => ensureExpr (tupleCheck here elements)
    | object shape =>
      subst same
      exact (nameOf depth type).bind fun name => ensure (objectBody here shape)
    | union members =>
      subst same
      exact (nameOf depth type).bind fun name => ensureExpr (unionCheck here members)
    | intersection members =>
      have check : Mirrors ctx (Act.intersectionCheck arena depth act type members)
          (ShapeCheck.intersectionCheck depth compile ctx type members) :=
        intersectionCheck parts same type members
      subst same
      exact (nameOf depth type).bind fun name => ensureExpr check
    | reference target arguments =>
      have body (definition : Definition) := referenceBody parts same definition arguments
      subst same
      refine (Mirrors.lift _).bind fun definition => ?_
      exact (nameOf depth type).bind fun name => ensure (body definition)
    | parameter id =>
      subst same
      exact resolve fun target inside same => parts inside same target
    | indexAccess whole index => exact compileIndexAccess parts same type whole index
    | keyof operand =>
      subst same
      exact (nameOf depth type).bind fun name => ensureExpr (keyofCheck operand)
    | _ => exact .throw _

end

/-- Compilation in place is compilation in the context that the session holds. -/
theorem compileWithin (depth : Nat) (ctx : Context) (type : TypeId) :
    Mirrors ctx (Act.compileWithin ctx.arena depth type) (ShapeCheck.compileWithin depth ctx type) := by
  induction depth generalizing ctx type with
  | zero => exact .throw _
  | succ depth ih =>
    refine (Mirrors.lift _).bind fun descriptor => ?_
    refine compileDescriptor (fun inside same part => ?_) rfl type descriptor
    rw [← same]
    exact ih inside part

end Mirrors

/-! ## The context is left intact -/

/-- Compilation in place, whether it ends in a name or in an error, does what a compilation does that
reads the context of the session. Afterwards the instantiations and the options are those from before,
every finished predicate stands unchanged at its place, and from at most as many instantiations as there
may be there never were more. -/
theorem Session.compile_leaves_context_intact (arena : Arena) (depth : Nat) (type : TypeId) (s : Session) :
    let outcome := (Act.compileWithin arena depth type).run.run s
    (outcome.1, outcome.2.registry) = (compileWithin depth (s.context arena) type).run.run s.registry ∧
      outcome.2.frames = s.frames ∧ outcome.2.options = s.options ∧
      (∀ (i : Nat) (name : String) (p : Predicate), s.registry.entries[i]? = some (name, some p) →
        outcome.2.registry.entries[i]? = some (name, some p)) ∧
      (s.frames.length ≤ maxInstantiationDepth → outcome.2.peak ≤ max s.peak maxInstantiationDepth) := by
  obtain ⟨same, after⟩ := Mirrors.compileWithin depth (s.context arena) type s rfl rfl
  exact ⟨same, after.frames, after.options, after.finished, after.peak⟩

end ShapeCheck
