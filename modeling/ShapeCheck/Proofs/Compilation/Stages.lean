import ShapeCheck.Compile.Basic
import ShapeCheck.Proofs.Outcome

set_option autoImplicit false

/-! # The stages of a compilation

Whether trivial predicates are written out is asked after all predicates have been built. Until then
nothing reads this option, so both ways start from the same predicates and fail with the same errors.

Main facts: `Arena.compile_eq_ok` (how a validator comes about) and `Arena.compile_withInlining` (what
the option changes).
-/

namespace ShapeCheck

namespace Context

variable (ctx : Context) (inline : Bool)

/-- The context with the option to write out trivial predicates set. -/
def withInlining : Context :=
  { ctx with options := { ctx.options with inlineTrivialPredicates := inline } }

/-! ## What a context tells -/

theorem withInlining_arena : (ctx.withInlining inline).arena = ctx.arena := rfl

theorem withInlining_exact : (ctx.withInlining inline).exact = ctx.exact := rfl

theorem withInlining_withExact (exact : Bool) :
    (ctx.withInlining inline).withExact exact = (ctx.withExact exact).withInlining inline := rfl

theorem withInlining_nameOf (depth : Nat) (type : TypeId) :
    (ctx.withInlining inline).nameOf depth type = ctx.nameOf depth type := rfl

theorem withInlining_enter (definition : Definition) (arguments : List TypeId) :
    (ctx.withInlining inline).enter definition arguments =
      (withInlining · inline) <$> ctx.enter definition arguments := by
  simp only [enter, map_bind, map_pure]
  rfl

theorem withInlining_resolve (id : ParameterId) :
    (ctx.withInlining inline).resolve id =
      (fun found => (found.1, found.2.withInlining inline)) <$> ctx.resolve id := by
  simp only [resolve, map_bind, map_pure]
  rfl

end Context

theorem Build.liftM_map {α β : Type} (f : α → β) (m : Except CompileError α) :
    (liftM (f <$> m) : Build β) = f <$> (liftM m : Build α) := by
  cases m <;> rfl

/-! ## Keys -/

section
variable (depth : Nat) (ctx : Context) (inline : Bool)

theorem collectKeysWithin_withInlining (steps : Nat) :
    collectKeysWithin depth steps (ctx.withInlining inline) =
      collectKeysWithin depth steps ctx := by
  induction steps generalizing ctx with
  | zero => rfl
  | succ steps ih =>
    funext type
    simp only [collectKeysWithin, Context.withInlining_arena, Context.withInlining_enter,
      Context.withInlining_resolve, bind_map_left, ih]

theorem Context.withInlining_collectKeys (type : TypeId) :
    (ctx.withInlining inline).collectKeys depth type = ctx.collectKeys depth type := by
  simp only [collectKeys, collectKeysWithin_withInlining]

theorem indexKeysWithin_withInlining (steps : Nat) :
    indexKeysWithin depth steps (ctx.withInlining inline) = indexKeysWithin depth steps ctx := by
  induction steps generalizing ctx with
  | zero => rfl
  | succ steps ih =>
    funext type
    simp only [indexKeysWithin, Context.withInlining_arena, Context.withInlining_enter,
      Context.withInlining_resolve, Context.withInlining_collectKeys, bind_map_left, ih]

theorem Context.withInlining_indexKeys (type : TypeId) :
    (ctx.withInlining inline).indexKeys depth type = ctx.indexKeys depth type := by
  simp only [indexKeys, indexKeysWithin_withInlining]

end

/-! ## Strategies -/

section
variable {depth : Nat} {compile : Context → TypeId → Build String} {inline : Bool}
  (same : ∀ ctx : Context, compile (ctx.withInlining inline) = compile ctx) (ctx : Context)
include same

theorem compilePart_withInlining :
    compilePart compile (ctx.withInlining inline) = compilePart compile ctx := by
  funext type optional
  simp only [compilePart, same]

theorem arrayBody_withInlining (element : TypeId) :
    arrayBody compile (ctx.withInlining inline) element = arrayBody compile ctx element := by
  simp only [arrayBody, same]

theorem tupleCheck_withInlining (elements : List TupleElement) :
    tupleCheck compile (ctx.withInlining inline) elements = tupleCheck compile ctx elements := by
  have tests (position : Nat) (elements : List TupleElement) :
      elementTests compile (ctx.withInlining inline) position elements =
        elementTests compile ctx position elements := by
    induction elements generalizing position with
    | nil => rfl
    | cons element rest ih => simp only [elementTests, compilePart_withInlining same, ih]
  simp only [tupleCheck, tests]

theorem objectBody_withInlining (shape : ObjectShape) :
    objectBody compile (ctx.withInlining inline) shape = objectBody compile ctx shape := by
  have tests : propertyTest? compile (ctx.withInlining inline) = propertyTest? compile ctx := by
    funext property
    simp only [propertyTest?, same]
    rfl
  have loops : keyLoop compile (ctx.withInlining inline) shape = keyLoop compile ctx shape := by
    simp only [keyLoop, same]
    rfl
  simp only [objectBody, tests, loops]

theorem unionCheck_withInlining (members : List TypeId) :
    unionCheck compile (ctx.withInlining inline) members = unionCheck compile ctx members := by
  simp only [unionCheck, memberCalls, same]

theorem intersectionCheck_withInlining (type : TypeId) (members : List TypeId) :
    intersectionCheck depth compile (ctx.withInlining inline) type members =
      intersectionCheck depth compile ctx type members := by
  simp only [intersectionCheck, memberCalls, same, Context.withInlining_withExact,
    Context.withInlining_exact, Context.withInlining_collectKeys]

theorem referenceBody_withInlining (definition : Definition) (arguments : List TypeId) :
    referenceBody compile (ctx.withInlining inline) definition arguments =
      referenceBody compile ctx definition arguments := by
  simp only [referenceBody, Context.withInlining_enter, Context.withInlining_arena,
    Build.liftM_map, bind_map_left, same, objectBody_withInlining same]

theorem membersWithin_withInlining (key : IndexKey) (steps : Nat) :
    membersWithin compile key steps (ctx.withInlining inline) =
      membersWithin compile key steps ctx := by
  induction steps generalizing ctx with
  | zero => rfl
  | succ steps ih =>
    funext type
    simp only [membersWithin, objectMembers, arrayMembers, tupleMembers, Context.withInlining_arena,
      Context.withInlining_enter, Context.withInlining_resolve, Build.liftM_map, bind_map_left,
      same, compilePart_withInlining same, ih]

theorem compileIndexAccess_withInlining (type whole index : TypeId) :
    compileIndexAccess depth compile (ctx.withInlining inline) type whole index =
      compileIndexAccess depth compile ctx type whole index := by
  have selected : selectedMembers depth compile (ctx.withInlining inline) type whole =
      selectedMembers depth compile ctx type whole := by
    funext key
    simp only [selectedMembers, membersWithin_withInlining same, Context.withInlining_nameOf]
  simp only [compileIndexAccess, selected, Context.withInlining_indexKeys,
    Context.withInlining_nameOf]

theorem compileDescriptor_withInlining (type : TypeId) (descriptor : Descriptor) :
    compileDescriptor depth compile (ctx.withInlining inline) type descriptor =
      compileDescriptor depth compile ctx type descriptor := by
  simp only [compileDescriptor, keyofCheck, Context.withInlining_arena,
    Context.withInlining_nameOf, Context.withInlining_resolve, Context.withInlining_collectKeys,
    Build.liftM_map, bind_map_left, arrayBody_withInlining same, tupleCheck_withInlining same,
    objectBody_withInlining same, unionCheck_withInlining same,
    intersectionCheck_withInlining same, referenceBody_withInlining same,
    compileIndexAccess_withInlining same, same]

end

/-! ## All types -/

theorem compileWithin_withInlining (inline : Bool) (depth : Nat) (ctx : Context) :
    compileWithin depth (ctx.withInlining inline) = compileWithin depth ctx := by
  induction depth generalizing ctx with
  | zero => rfl
  | succ depth ih =>
    funext type
    simp only [compileWithin, Context.withInlining_arena, compileDescriptor_withInlining ih]

theorem Context.compileRoot_withInlining (inline : Bool) (ctx : Context) (type : TypeId) :
    (ctx.withInlining inline).compileRoot type = ctx.compileRoot type := by
  simp only [compileRoot, Context.compile, compileWithin_withInlining]
  rfl

/-! ## The last stage -/

namespace Arena

variable {arena : Arena} {type : TypeId} {options : CompileOptions}

/-- A validator consists of the predicates of its compilation, written out where that is asked. -/
theorem compile_eq_ok {v : Validator} :
    arena.compile type options = .ok v ↔
      ∃ root registry, Gives ((Context.root arena options).compileRoot type) .empty root registry ∧
        v = ⟨root, if options.inlineTrivialPredicates then
          Predicate.inlineTrivial registry.predicates root else registry.predicates, options⟩ := by
  unfold Arena.compile
  rcases made : ((Context.root arena options).compileRoot type).run.run .empty with ⟨result, registry⟩
  constructor
  · intro h
    cases result with
    | error e => cases h
    | ok root =>
      obtain rfl := Except.ok.inj h
      exact ⟨root, registry, made, rfl⟩
  · rintro ⟨root, registry', outcome, rfl⟩
    obtain ⟨rfl, rfl⟩ : result = .ok root ∧ registry = registry' := by
      have same : (result, registry) = (.ok root, registry') := made.symm.trans outcome
      simpa using same
    rfl

/-- A type that compiles compiles with and without the option to write out trivial predicates, and
with it the predicates are those without it, written out. -/
theorem compile_withInlining {u : Validator} (made : arena.compile type options = .ok u) :
    ∃ v, arena.compile type { options with inlineTrivialPredicates := false } = .ok v ∧
      arena.compile type { options with inlineTrivialPredicates := true } =
        .ok { v with
          predicates := Predicate.inlineTrivial v.predicates v.root
          options := { options with inlineTrivialPredicates := true } } := by
  obtain ⟨root, registry, outcome, -⟩ := compile_eq_ok.1 made
  have set (inline : Bool) : Gives ((Context.root arena
      { options with inlineTrivialPredicates := inline }).compileRoot type) .empty root registry := by
    have same := Context.compileRoot_withInlining inline (Context.root arena options) type
    rw [← same] at outcome
    exact outcome
  refine ⟨⟨root, registry.predicates, { options with inlineTrivialPredicates := false }⟩, ?_, ?_⟩
  · exact compile_eq_ok.2 ⟨root, registry, set false, rfl⟩
  · exact compile_eq_ok.2 ⟨root, registry, set true, rfl⟩

end Arena

end ShapeCheck
