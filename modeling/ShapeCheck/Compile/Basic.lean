import ShapeCheck.Compile.Composite
import ShapeCheck.Predicate.Inline
import ShapeCheck.Validation.Validator

set_option autoImplicit false

/-! # Compilation

A type is compiled into predicates, one for each canonical name, and the name of its own. Types that
contain themselves end at a name that is reserved already. Others could unfold forever, such as a
member typed by an access to itself, so compilation is recursive in the depth that is left.

Main facts: `compileWithin_leaf` (what a leaf type compiles to) and `compileWithin_parameter` (a
parameter compiles as what it stands for).
-/

namespace ShapeCheck

/-- Builds the predicate of a type within a depth, and returns its name. -/
def compileWithin : Nat → Context → TypeId → Build String
  | 0, _, type => throw (.endless type)
  | depth + 1, ctx, type => do
    let descriptor ← ctx.arena.lookup type
    compileDescriptor depth (compileWithin depth) ctx type descriptor

theorem compileWithin_leaf {depth : Nat} {ctx : Context} {type : TypeId} {descriptor : Descriptor}
    {leaf : Leaf} (found : ctx.arena.lookup? type = some descriptor)
    (isLeaf : descriptor.leaf? = some leaf) :
    compileWithin (depth + 1) ctx type =
      Build.ensureExpr leaf.name leaf.reason (return leaf.check) := by
  simp [compileWithin, compileDescriptor, Arena.lookup, found, isLeaf]

theorem compileWithin_parameter {depth : Nat} {ctx visible : Context} {type target : TypeId}
    {id : ParameterId} (found : ctx.arena.lookup? type = some (.parameter id))
    (stands : ctx.resolve id = .ok (target, visible)) :
    compileWithin (depth + 1) ctx type = compileWithin depth visible target := by
  simp [compileWithin, compileDescriptor, Arena.lookup, found, stands, Descriptor.leaf?]

/-- The depth within which types are compiled and named. A type that needs more does not fit the
stack of any machine. -/
def maxUnfoldingDepth : Nat := 1000000000

namespace Context

/-- The context of a compilation from the outside. -/
def root (arena : Arena) (options : CompileOptions) : Context := ⟨arena, options, []⟩

/-- Builds the predicate of a type and returns its name. -/
def compile (ctx : Context) (type : TypeId) : Build String :=
  compileWithin maxUnfoldingDepth ctx type

/-- Builds the predicate of a root as its options ask. -/
def compileRoot (ctx : Context) (type : TypeId) : Build String := do
  if ctx.options.shortCircuit then ctx.compile (.ofKeyword .any)
  else
    let name ← ctx.compile type
    if ctx.options.valueMayBeAbsent then Build.optional name else return name

end Context

/-- The canonical name of a type. -/
def Arena.typeName (arena : Arena) (s : Substitution) (exact : Bool) (type : TypeId) :
    Except CompileError String :=
  typeNameWithin arena maxUnfoldingDepth s exact type

/-- The validator of a type. -/
def Arena.compile (arena : Arena) (type : TypeId) (options : CompileOptions) :
    Except CompileError Validator :=
  match ((Context.root arena options).compileRoot type).run.run .empty with
  | (.error e, _) => .error e
  | (.ok root, registry) =>
    let predicates :=
      if options.inlineTrivialPredicates then Predicate.inlineTrivial registry.predicates root
      else registry.predicates
    .ok ⟨root, predicates, options⟩

end ShapeCheck
