import ShapeCheck.Compile.Naming
import ShapeCheck.Compile.Options
import ShapeCheck.Predicate.Registry

set_option autoImplicit false

/-! # What a compilation reads and writes

A compilation reads a `Context` and adds predicates to a registry. The context is passed down and
never written, so whoever compiles a part in a changed context goes on in the unchanged one. The
registry survives errors: a name that was reserved stays reserved.

Main facts: `Build.liftM_ok` and `Build.liftM_error` (results that need no registry).
-/

namespace ShapeCheck

/-- What a type is compiled in. -/
structure Context where
  arena : Arena
  options : CompileOptions
  /-- What the type parameters stand for. -/
  substitution : Substitution

/-- A step of a compilation. -/
abbrev Build := ExceptT CompileError (StateM Registry)

namespace Context

/-- Objects are checked for superfluous keys. -/
def exact (ctx : Context) : Bool := ctx.options.superfluousPropertyCheck

/-- Turns the check for superfluous keys on or off. -/
def withExact (ctx : Context) (exact : Bool) : Context :=
  { ctx with options := { ctx.options with superfluousPropertyCheck := exact } }

/-- Reads types with another substitution. -/
def reading (ctx : Context) (substitution : Substitution) : Context := { ctx with substitution }

/-- The context inside of a reference to a definition. -/
def enter (ctx : Context) (definition : Definition) (arguments : List TypeId) :
    Except CompileError Context := do
  return ctx.reading (← ctx.substitution.enter ctx.arena definition arguments)

/-- What a type parameter stands for, and the context to read it in. -/
def resolve (ctx : Context) (id : ParameterId) : Except CompileError (TypeId × Context) := do
  let (type, visible) ← ctx.substitution.resolve ctx.arena id
  return (type, ctx.reading visible)

/-- The name of a type, spelled within a depth. -/
def nameOf (ctx : Context) (depth : Nat) (type : TypeId) : Except CompileError String :=
  typeNameWithin ctx.arena depth ctx.substitution ctx.exact type

end Context

namespace Build

@[simp] theorem liftM_ok {α : Type} (a : α) :
    (liftM (Except.ok a : Except CompileError α) : Build α) = pure a := rfl

@[simp] theorem liftM_error {α : Type} (e : CompileError) :
    (liftM (Except.error e : Except CompileError α) : Build α) = throw e := rfl

/-- Builds the predicate of this name, unless the name is taken. It is reserved while its body is
built. -/
def ensure (name : String) (reason : Option Reason) (body : Build (List Stmt)) : Build String := do
  if (← get).contains name then return name
  else
    -- a body that comes back to this type finds the name taken
    modify fun registry => registry.reserve name
    let stmts ← body
    modify fun registry => registry.complete ⟨name, Expr.parameterName, stmts, reason⟩
    return name

/-- Builds a predicate that is a single expression. -/
def ensureExpr (name : String) (reason : Option Reason) (body : Build Expr) : Build String :=
  ensure name reason do return [.result (← body)]

/-- Builds the predicate that accepts `undefined` and what another one accepts. -/
def optional (inner : String) : Build String :=
  ensureExpr (optionalName inner) none do
    return .or [.strictEq .parameter .undefined, .call inner .parameter]

end Build

end ShapeCheck
