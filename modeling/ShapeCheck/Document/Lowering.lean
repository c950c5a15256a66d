import ShapeCheck.Document.Basic

set_option autoImplicit false

/-! # Lowering documents

Lowering enters a document into an arena. All definitions are declared before any body is looked at,
so bodies may mention themselves, each other, and definitions that come later. A type parameter is
known inside the definition that declares it; of two with one name the later one is meant.

An error leaves in the arena what had been entered before it.
-/

namespace ShapeCheck

/-- Work on an arena that may fail; what was entered before a failure stays. -/
abbrev Lowering := ExceptT DocumentError (StateM Arena)

namespace Lowering

/-- A definition that expressions can refer to, with the number of its parameters. -/
structure Target where
  id : DefinitionId
  arity : Nat
  deriving DecidableEq, Repr

/-- The definitions of the document, by name. -/
abbrev Targets := List (String × Target)

/-- The type parameters of the enclosing definition, by name, the last declared first. -/
abbrev Scope := List (String × TypeId)

/-- Runs an operation of the arena. -/
def onArena {α : Type} (operation : Arena → α × Arena) : Lowering α := do
  let (result, arena) := operation (← get)
  set arena
  return result

/-! ## Expressions -/

mutual

/-- Enters an expression. -/
def lower (targets : Targets) (scope : Scope) : TypeExpr → Lowering TypeId
  | .keyword word => return .ofKeyword word
  | .buffer => return .buffer
  | .stringLiteral value => onArena fun arena => arena.intern (.stringLiteral value)
  | .numberLiteral value => onArena fun arena => arena.intern (.numberLiteral value)
  | .booleanLiteral value => return .ofBool value
  | .array element => do
    let element ← lower targets scope element
    onArena fun arena => arena.intern (.array element)
  | .tuple elements => do
    let elements ← lowerElements targets scope elements
    onArena fun arena => arena.intern (.tuple elements)
  | .object properties index => do
    let properties ← lowerProperties targets scope properties
    let index ← lowerOption targets scope index
    onArena fun arena => arena.intern (.object ⟨properties, index⟩)
  | .union members => do
    let members ← lowerAll targets scope members
    onArena fun arena => arena.union members
  | .intersection members => do
    let members ← lowerAll targets scope members
    onArena fun arena => arena.intersection members
  | .reference name arguments =>
    match targets.lookup name with
    | none => throw (.unknownDefinition name)
    | some target =>
      -- fewer arguments are fine: defaults or nothing stand in for the rest
      if target.arity < arguments.length then
        throw (.tooManyArguments name target.arity arguments.length)
      else do
        let arguments ← lowerAll targets scope arguments
        onArena fun arena => arena.intern (.reference target.id arguments)
  | .parameter name =>
    match scope.lookup name with
    | none => throw (.unknownParameter name)
    | some type => return type
  | .indexAccess whole key => do
    let whole ← lower targets scope whole
    let key ← lower targets scope key
    onArena fun arena => arena.intern (.indexAccess whole key)
  | .keyof operand => do
    let operand ← lower targets scope operand
    onArena fun arena => arena.intern (.keyof operand)
  | .view kind => onArena fun arena => arena.intern (.view kind)

/-- Enters expressions from left to right. -/
def lowerAll (targets : Targets) (scope : Scope) : List TypeExpr → Lowering (List TypeId)
  | [] => return []
  | expr :: rest => do
    let type ← lower targets scope expr
    return type :: (← lowerAll targets scope rest)

/-- Enters an expression if there is one. -/
def lowerOption (targets : Targets) (scope : Scope) : Option TypeExpr → Lowering (Option TypeId)
  | none => return none
  | some expr => return some (← lower targets scope expr)

/-- Enters the positions of a tuple. -/
def lowerElements (targets : Targets) (scope : Scope) :
    List (TypeExpr × Bool) → Lowering (List TupleElement)
  | [] => return []
  | (expr, optional) :: rest => do
    let type ← lower targets scope expr
    return ⟨type, optional⟩ :: (← lowerElements targets scope rest)

/-- Enters the members of an object. -/
def lowerProperties (targets : Targets) (scope : Scope) :
    List (PropertyHead × Option TypeExpr) → Lowering (List Property)
  | [] => return []
  | (head, expr) :: rest => do
    let type ← lowerOption targets scope expr
    return ⟨head.name, type, head.optional, head.method, head.symbolKeyed⟩ ::
      (← lowerProperties targets scope rest)

end

/-! ## Definitions -/

/-- A declared definition, with what its body needs. -/
structure Declared where
  decl : DefinitionDecl
  id : DefinitionId
  parameters : List ParameterId
  scope : Scope

/-- Declares type parameters in order. -/
def declareParameters (parameters : List ParameterId) (scope : Scope) :
    List ParameterDecl → Lowering (List ParameterId × Scope)
  | [] => return (parameters.reverse, scope)
  | decl :: rest => do
    let (id, type) ← onArena fun arena =>
      let (id, type, arena) := arena.addParameter decl.name
      ((id, type), arena)
    declareParameters (id :: parameters) ((decl.name, type) :: scope) rest

/-- Declares all definitions in order. -/
def declareAll (targets : Targets) (declared : List Declared) :
    List DefinitionDecl → Lowering (Targets × List Declared)
  | [] => return (targets, declared.reverse)
  | decl :: rest =>
    if (targets.lookup decl.name).isSome then throw (.duplicateDefinition decl.name)
    else do
      let (parameters, scope) ← declareParameters [] [] decl.parameters
      let id ← onArena fun arena => arena.declare decl.name parameters
      declareAll ((decl.name, ⟨id, parameters.length⟩) :: targets)
        (⟨decl, id, parameters, scope⟩ :: declared) rest

/-- Enters the defaults of type parameters. -/
def lowerDefaults (targets : Targets) (scope : Scope) :
    List (ParameterDecl × ParameterId) → Lowering Unit
  | [] => return ()
  | (decl, id) :: rest => do
    match decl.default with
    | none => pure ()
    | some expr =>
      let type ← lower targets scope expr
      modify fun arena => arena.setDefault id type
    lowerDefaults targets scope rest

/-- Enters what a definition extends. -/
def lowerBases (targets : Targets) (definition : Declared) : List TypeExpr → Lowering Unit
  | [] => return ()
  | expr :: rest => do
    match expr with
    | .reference _ _ =>
      let base ← lower targets definition.scope expr
      modify fun arena => arena.addBase definition.id base
    | _ => throw (.invalidBase definition.decl.name)
    lowerBases targets definition rest

/-- Enters a definition: the defaults of its parameters, its bases, then its body. -/
def lowerDefinition (targets : Targets) (definition : Declared) : Lowering Unit := do
  lowerDefaults targets definition.scope
    (definition.decl.parameters.zip definition.parameters)
  lowerBases targets definition definition.decl.bases
  let body ← lower targets definition.scope definition.decl.body
  modify fun arena => arena.define definition.id body

/-- Enters a document; the result is the handle of its root. -/
def lowerDocument (document : Document) : Lowering TypeId := do
  let (targets, declared) ← declareAll [] [] document.definitions
  declared.forM (lowerDefinition targets)
  lower targets [] document.root

end Lowering

/-- Enters a document into an arena. The arena is returned also when that fails. -/
def Document.lower (document : Document) (arena : Arena) :
    Except DocumentError TypeId × Arena :=
  (Lowering.lowerDocument document).run.run arena

end ShapeCheck
