import ShapeCheck.Proofs.Meaning.Correctness
import ShapeCheck.Proofs.Sealing.Validators
import ShapeCheck.Proofs.Semantics.Names

set_option autoImplicit false

/-! # Predicates decide the values of types

The predicates that are built for a root in any context decide the values of the subjects they are built
for, unless a name is registered for two different subjects. This is `verdict_compile_iff` for all types:
generic definitions, definitions that extend others, accesses and types of keys are taken in, and so are
unions without members.

Main facts: `Subject.compileWithin_decides` and `Context.verdict_iff_contains`.
-/

namespace ShapeCheck

namespace Arena

/-- A type that is no parameter has the values that its descriptor says. -/
theorem contains_iff_fits {arena : Arena} {exact : Bool} {s : Substitution} {type : TypeId}
    {descriptor : Descriptor} (found : arena.lookup? type = some descriptor)
    (plain : ∀ id, descriptor ≠ .parameter id) (v : Value) :
    arena.Contains exact (s, type) v ↔ descriptor.Fits arena arena.Contains exact v (s, type) := by
  have notParameter (id : ParameterId) : arena.lookup? type ≠ some (.parameter id) := by
    rw [found]
    exact fun same => plain id (Option.some.inj same)
  rw [contains_iff]
  constructor
  · rintro ⟨b, other, stands, found', fits⟩
    obtain rfl := StandsFor.unique (.itself notParameter) stands
    obtain rfl := Option.some.inj (found.symm.trans found')
    exact fits
  · exact fun fits => ⟨_, descriptor, .itself notParameter, found, fits⟩

end Arena

/-! ## Strategies -/

section
variable {M : String → Value → Prop} {compile : Context → TypeId → Build String} {ctx : Context}
  {A : TypeId → Bool → Value → Prop}

/-- A union without members accepts everything. -/
theorem unionCheck_fits {members : List TypeId}
    (compiled : ∀ member ∈ members, KeepsDeciding M (compile ctx member) (Stands M (A member ctx.exact))) :
    KeepsDeciding M (unionCheck compile ctx members) fun e =>
      e.Tells M fun v => members = [] ∨ ∃ member ∈ members, A member ctx.exact v := by
  by_cases none : members = []
  · subst none
    exact .pure ((Expr.tells_bool true).congr fun _ => by simp)
  · exact (unionCheck_tells none compiled).mono fun e tells => tells.congr fun v => by simp [none]

/-- All members, and then the keys that are collected for the whole. -/
theorem intersectionCheck_fits {depth : Nat} {type : TypeId} {members : List TypeId}
    {Collected : KeySet → Prop} (unique : ∀ keys? keys?', Collected keys? → Collected keys?' → keys? = keys?')
    (collects : ∀ keys?, ctx.collectKeys depth type = .ok keys? → Collected keys?)
    (compiled : ∀ member ∈ members,
      KeepsDeciding M (compile (ctx.withExact false) member) (Stands M (A member false)))
    (named : ctx.exact = true → ∀ keys, ctx.collectKeys depth type = .ok (some keys) →
      Stands M (fun v => v.IsObject → ∀ key ∈ v.keys, key ∈ keys) (exactKeysName keys)) :
    KeepsDeciding M (intersectionCheck depth compile ctx type members) fun e => e.Tells M fun v =>
      (∀ member ∈ members, A member false v) ∧ (ctx.exact = true → ∀ keys, Collected (some keys) →
        v.IsObject → ∀ key ∈ v.keys, key ∈ keys) := by
  unfold intersectionCheck
  refine (memberCalls_test compiled).bind fun calls tests => ?_
  have all : (Expr.and calls).Tells M fun v => ∀ member ∈ members, A member false v :=
    fun call answers x => Expr.tests_and (tests call answers x).1
  split
  · rename_i exact
    refine Keeps.lift_bind fun keys? collected => ?_
    have here := collects keys? collected
    split
    · rename_i keys
      refine (exactKeysPredicate_stands (named exact keys collected)).bind
        fun name stands => .pure fun call answers x => ?_
      have last := Expr.tells_callOn stands call answers x
      refine (Expr.tests_and (Expr.allTest_append (tests call answers x).1
        (Expr.allTest_cons last Expr.allTest_nil))).congr ?_
      rw [and_true]
      refine and_congr_right fun _ => ⟨fun keep _ others listed => ?_, fun keep => keep exact keys here⟩
      obtain rfl := Option.some.inj (unique _ _ listed here)
      exact keep
    · refine .pure (all.congr fun v => (and_iff_left fun _ keys listed => ?_).symm)
      cases unique _ _ listed here
  · rename_i loose
    exact .pure (all.congr fun v => by simp [loose])

/-- One of the keys that are collected for the operand. -/
theorem keyofCheck_fits {depth : Nat} {operand : TypeId} {Collected : KeySet → Prop}
    (unique : ∀ keys? keys?', Collected keys? → Collected keys?' → keys? = keys?')
    (collects : ∀ keys?, ctx.collectKeys depth operand = .ok keys? → Collected keys?) :
    KeepsDeciding M (keyofCheck depth ctx operand) fun e => e.Tells M fun v =>
      ∃ keys?, Collected keys? ∧ keys?.Fits v := by
  unfold keyofCheck
  refine Keeps.lift_bind fun keys? collected => ?_
  have here := collects keys? collected
  have same (v : Value) : (∃ keys?, Collected keys? ∧ keys?.Fits v) ↔ keys?.Fits v := by
    refine ⟨?_, fun fits => ⟨keys?, here, fits⟩⟩
    rintro ⟨others, listed, fits⟩
    exact unique _ _ listed here ▸ fits
  cases keys? with
  | some keys =>
    refine .pure fun call answers x => ?_
    have each (key : String) (_ : key ∈ keys) : (Expr.strictEq .parameter (.string key)).Tests
        Observer.silent call (Frame.ofValue x) (x.value = .string key) := Expr.tests_text key
    exact (Expr.tests_or (Expr.someTest_map each)).congr (same x.value).symm
  | none =>
    refine .pure fun call answers x => ?_
    refine (Expr.tests_or (Expr.someTest_cons (Expr.tells_typeOfIs (M := M) "string" call answers x)
      (Expr.someTest_cons (Expr.tells_typeOfIs (M := M) "number" call answers x)
        Expr.someTest_nil))).congr ?_
    refine .trans ?_ (same x.value).symm
    simp [KeySet.Fits]

end

namespace Subject

/-! ## Types in their places -/

section
variable {arena : Arena} (number : arena.lookup? (.ofKeyword .number) = some (.keyword .number))
  {root : Subject} (apart : ToldApart arena root) {depth : Nat}
  {compile : Context → TypeId → Build String}
  (compiled : ∀ (options : CompileOptions) (s : Substitution) (type : TypeId),
    IsBuilt arena root (.ofType options.superfluousPropertyCheck (s, type)) →
      KeepsDeciding (Means arena root) (compile ⟨arena, options, s⟩ type) fun name =>
        ∃ own, Bears arena own (.ofType options.superfluousPropertyCheck (s, type)) name)
  {options : CompileOptions} {s : Substitution} {type : TypeId}
include number apart compiled

theorem part_stands (options : CompileOptions) {s : Substitution} {type : TypeId}
    (built : IsBuilt arena root (.ofType options.superfluousPropertyCheck (s, type))) :
    KeepsDeciding (Means arena root) (compile ⟨arena, options, s⟩ type)
      (Stands (Means arena root) (arena.Contains options.superfluousPropertyCheck (s, type))) :=
  (compiled options s type built).mono fun _ ⟨_, bears⟩ => stands number apart built bears

theorem choice_stands (choice : Choice)
    (built : IsBuilt arena root (.ofChoice options.superfluousPropertyCheck choice)) :
    KeepsDeciding (Means arena root)
      (compilePart compile ⟨arena, options, choice.reading.1⟩ choice.reading.2 choice.optional)
      (Stands (Means arena root) fun v =>
        (choice.optional = true ∧ v = .undefined) ∨
          arena.Contains options.superfluousPropertyCheck choice.reading v) := by
  unfold ofChoice at built
  refine compilePart_stands ?_
  cases optional : choice.optional with
  | false =>
    rw [optional, if_neg Bool.false_ne_true] at built
    exact (part_stands number apart compiled options built).mono fun name stands => ⟨stands, nofun⟩
  | true =>
    rw [optional, if_pos rfl] at built
    have part : IsBuilt arena root (.ofType options.superfluousPropertyCheck choice.reading) :=
      .tail built (.optional _ choice.reading)
    refine (compiled options _ _ part).mono fun name ⟨own, bears⟩ => ?_
    exact ⟨stands number apart part bears, fun _ => stands number apart built (.optional bears)⟩

/-- The contents of a definition, entered through a reference. -/
theorem referenceBody_fits {target : DefinitionId} {arguments : List TypeId} {definition : Definition}
    (found : arena.lookup? type = some (.reference target arguments))
    (leads : arena.definition? target = some definition)
    (built : IsBuilt arena root (.ofType options.superfluousPropertyCheck (s, type))) :
    KeepsDeciding (Means arena root) (referenceBody compile ⟨arena, options, s⟩ definition arguments)
      fun stmts => Stmt.Tell (Means arena root) stmts fun v =>
        (Descriptor.reference target arguments).Fits arena arena.Contains
          options.superfluousPropertyCheck v (s, type) := by
  unfold referenceBody
  refine Keeps.lift_bind fun inside entered => ?_
  obtain ⟨t, opened, made⟩ := bind_eq_ok.1 entered
  obtain rfl := Except.ok.inj made
  obtain ⟨bindings, bound, rfl⟩ := Substitution.enter_eq_within opened
  refine Keeps.lift_bind fun body given => ?_
  have given : definition.body = some body := Definition.requireBody_eq_ok.1 given
  have same (v : Value) : (Descriptor.reference target arguments).Fits arena arena.Contains
      options.superfluousPropertyCheck v (s, type) ↔
        definition.Fits arena arena.Contains options.superfluousPropertyCheck v (s.within bindings) := by
    refine ⟨?_, fun fits => ⟨definition, bindings, leads, bound, fits⟩⟩
    rintro ⟨definition', bindings', leads', bound', fits⟩
    obtain rfl := Option.some.inj (leads.symm.trans leads')
    obtain rfl := Except.ok.inj (bound.symm.trans bound')
    exact fits
  split
  · rename_i none
    have plain : definition.bases = [] := List.isEmpty_iff.1 none
    have part := part_stands number apart compiled options
      (.tail built (.body found leads opened given plain))
    refine part.bind fun name stands => .pure ((Stmt.tell_result (Expr.tells_callOn stands)).congr
      fun v => ?_)
    rw [same]
    refine ⟨.body plain given, fun fits => ?_⟩
    cases fits with
    | body _ given' here =>
      obtain rfl := Option.some.inj (given.symm.trans given')
      exact here
    | merged derived => exact absurd plain derived
  · rename_i some
    have derived : definition.bases ≠ [] := fun none => some (List.isEmpty_iff.2 none)
    refine Keeps.lift_bind fun shape merged => ?_
    have part (part : TypeId) (checks : shape.Checks part) :=
      part_stands number apart compiled options
        (.tail built (.inherited found leads opened derived merged checks))
    refine (objectBody_tell (A := fun part exact => arena.Contains exact (s.within bindings, part))
      (fun property inside texts field type typed => part type (.inl ⟨property, inside, texts, field, typed⟩))
      fun type indexed => part type (.inr indexed)).mono fun stmts tell => tell.congr fun v => ?_
    rw [same]
    refine ⟨.merged derived merged, fun fits => ?_⟩
    cases fits with
    | body plain => exact absurd plain derived
    | merged _ merged' here =>
      obtain rfl := Except.ok.inj (merged.symm.trans merged')
      exact here

/-- An access finds the predicates of its members, or builds one that accepts what some of them accept. -/
theorem compileIndexAccess_keeps {whole index : TypeId}
    (named : ∀ s type, Keeps (fun _ => True) (compile ⟨arena, options, s⟩ type) fun name =>
      ∃ own, Bears arena own (.ofType options.superfluousPropertyCheck (s, type)) name)
    (found : arena.lookup? type = some (.indexAccess whole index))
    (built : IsBuilt arena root (.ofType options.superfluousPropertyCheck (s, type))) :
    KeepsDeciding (Means arena root) (compileIndexAccess depth compile ⟨arena, options, s⟩ type whole index)
      fun _ => True := by
  intro r name r' outcome holds
  refine ⟨?_, trivial⟩
  obtain ⟨own, bears⟩ := (bears_compileIndexAccess named number depth found r name r' outcome trivial).2
  obtain ⟨keys, indexed, outcome⟩ := Build.gives_lift_bind.1 outcome
  obtain ⟨names, t, made, rest⟩ := gives_bind.1 outcome
  obtain ⟨holds, lists, chosen, covers, -⟩ := selectedMembers_keeps
    (fun choice => choice_stands number apart compiled choice) found built indexed r names t made holds
  have cover := Covers.flatten covers
  split at rest
  · exact absurd rest gives_throw
  · obtain ⟨-, rfl⟩ := gives_pure.1 rest
    exact holds
  · obtain ⟨name', -, rest⟩ := Build.gives_lift_bind.1 rest
    obtain rfl := (Build.keeps_ensure _ _ _ _ _ _ rest trivial).2
    refine (Build.ensureExpr_decides (P := fun v => arena.Contains options.superfluousPropertyCheck (s, type) v)
      (fun v => (stands number apart built bears v).symm) (.pure fun call answers x => ?_) _ _ _ rest holds).1
    have each (name : String) (_ : name ∈ names.flatten.eraseDups) : (Expr.callOn name).Tests
        Observer.silent call (Frame.ofValue x) (Means arena root name x.value) :=
      Expr.tells_callOn (fun _ => Iff.rfl) call answers x
    refine (Expr.tests_or (Expr.someTest_map each)).congr ?_
    refine .trans ?_ (contains_access_iff number found chosen x.value).symm
    simp only [List.mem_eraseDups, contains_ofChoice]
    constructor
    · rintro ⟨name, listed, means⟩
      obtain ⟨choice, inside, stands⟩ := cover.chosen name listed
      exact ⟨choice, inside, (stands x.value).1 means⟩
    · rintro ⟨choice, inside, fits⟩
      obtain ⟨name, listed, stands⟩ := cover.named choice inside
      exact ⟨name, listed, (stands x.value).2 fits⟩

/-- The predicate of a descriptor decides its equation. -/
theorem compileDescriptor_fits (named : ∀ s type, Keeps (fun _ => True) (compile ⟨arena, options, s⟩ type)
      fun name => ∃ own, Bears arena own (.ofType options.superfluousPropertyCheck (s, type)) name)
    {descriptor : Descriptor} (found : arena.lookup? type = some descriptor)
    (built : IsBuilt arena root (.ofType options.superfluousPropertyCheck (s, type))) :
    KeepsDeciding (Means arena root) (compileDescriptor depth compile ⟨arena, options, s⟩ type descriptor)
      fun _ => True := by
  -- a type with a name of its own: the name means the equation
  have same {m : Nat} {name : String} (plain : descriptor.forwards = false)
      (spelled : typeNameWithin arena m s options.superfluousPropertyCheck type = .ok name) (v : Value) :
      descriptor.Fits arena arena.Contains options.superfluousPropertyCheck v (s, type) ↔
        Means arena root name v := by
    refine .trans (Arena.contains_iff_fits found (fun id parameter => ?_) v).symm
      (stands number apart built (.type found plain spelled) v).symm
    rw [parameter] at plain
    cases plain
  have part {part : TypeId} (needed : Needs arena (.ofType options.superfluousPropertyCheck (s, type))
      (.ofType options.superfluousPropertyCheck (s, part))) :=
    part_stands number apart compiled options (.tail built needed)
  unfold compileDescriptor
  split
  · rename_i leaf isLeaf
    have plain : descriptor.forwards = false := by
      cases descriptor <;> first | rfl | cases isLeaf
    have spelled : typeNameWithin arena 1 s options.superfluousPropertyCheck type = .ok leaf.name := by
      rw [typeNameWithin, Arena.lookup_eq_ok.2 found]
      exact descriptor.leaf?_name isLeaf arena _ _ _
    refine (Build.ensureExpr_decides (same plain spelled) (.pure ?_)).mono fun _ _ => trivial
    have tells := Descriptor.leaf?_tells (M := Means arena root) isLeaf
      (fun part exact => arena.Contains exact (s, part)) options.superfluousPropertyCheck arena type
    cases descriptor <;> first | exact tells | cases isLeaf
  cases descriptor with
  | array element =>
    refine Keeps.lift_bind fun name spelled => ?_
    refine (Build.ensure_decides (same rfl spelled) (arrayBody_tell
      (A := fun part exact => arena.Contains exact (s, part)) (part (.element found)))).mono
      fun _ _ => trivial
  | tuple elements =>
    refine Keeps.lift_bind fun name spelled => ?_
    refine (Build.ensureExpr_decides (same rfl spelled) (tupleCheck_tells
      (A := fun part exact => arena.Contains exact (s, part)) fun element inside => ?_)).mono
        fun _ _ => trivial
    exact choice_stands number apart compiled ⟨(s, element.type), element.optional⟩
      (.tail built (.position found inside))
  | object shape =>
    refine Keeps.lift_bind fun name spelled => ?_
    refine (Build.ensure_decides (same rfl spelled) (objectBody_tell
      (A := fun part exact => arena.Contains exact (s, part))
      (fun property inside texts field type typed =>
        part (.member found (.inl ⟨property, inside, texts, field, typed⟩)))
      fun type indexed => part (.member found (.inr indexed)))).mono fun _ _ => trivial
  | union members =>
    refine Keeps.lift_bind fun name spelled => ?_
    exact (Build.ensureExpr_decides (same rfl spelled)
      (unionCheck_fits (A := fun part exact => arena.Contains exact (s, part))
        fun member inside => part (.alternative found inside))).mono fun _ _ => trivial
  | intersection members =>
    refine Keeps.lift_bind fun name spelled => ?_
    refine (Build.ensureExpr_decides (same rfl spelled) (intersectionCheck_fits
      (A := fun part exact => arena.Contains exact (s, part))
      (fun _ _ => Arena.Collects.unique)
      (fun keys? collected => ⟨(s, type), options, depth, .refl arena _, collected⟩)
      (fun member inside => ?_) fun exact keys collected => ?_)).mono fun _ _ => trivial
    · exact part_stands number apart compiled { options with superfluousPropertyCheck := false }
        (.tail built (.conjunct found inside))
    · have exact : options.superfluousPropertyCheck = true := exact
      rw [exact] at built
      exact stands number apart (.tail built (.keys found collected)) (.keySet keys)
  | reference target arguments =>
    refine Keeps.lift_bind fun definition leads => Keeps.lift_bind fun name spelled => ?_
    exact (Build.ensure_decides (same rfl spelled) (referenceBody_fits number apart compiled found
      (Arena.target_eq_ok.1 leads) built)).mono fun _ _ => trivial
  | parameter id =>
    refine Keeps.lift_bind fun stood stands => ?_
    obtain ⟨target, visible⟩ := stood
    obtain ⟨outer, resolved, rfl⟩ := Context.resolve_eq_ok stands
    exact (compiled options outer target (.tail built (.parameter found resolved))).mono fun _ _ => trivial
  | indexAccess whole index => exact compileIndexAccess_keeps number apart compiled named found built
  | keyof operand =>
    refine Keeps.lift_bind fun name spelled => ?_
    exact (Build.ensureExpr_decides (same rfl spelled) (keyofCheck_fits (fun _ _ => Arena.Collects.unique)
      fun keys? collected => ⟨(s, operand), options, depth, .refl arena _, collected⟩)).mono
        fun _ _ => trivial
  | _ => exact .throw _

end

section
variable {arena : Arena} (number : arena.lookup? (.ofKeyword .number) = some (.keyword .number))
  {root : Subject} (apart : ToldApart arena root)
include number apart

/-- The predicates that are built decide what their names mean. -/
theorem compileWithin_decides (depth : Nat) (options : CompileOptions) (s : Substitution) (type : TypeId)
    (built : IsBuilt arena root (.ofType options.superfluousPropertyCheck (s, type))) :
    KeepsDeciding (Means arena root) (compileWithin depth ⟨arena, options, s⟩ type) fun name =>
      ∃ own, Bears arena own (.ofType options.superfluousPropertyCheck (s, type)) name := by
  refine (Keeps.and_result (Q := fun _ => True) ?_ (bears_compileWithin number depth options s type)).mono
    fun _ both => both.2
  induction depth generalizing options s type with
  | zero => exact .throw _
  | succ depth ih =>
    refine Keeps.lift_bind fun descriptor found => ?_
    refine compileDescriptor_fits number apart (fun options s type built => ?_)
      (bears_compileWithin number depth options) (Arena.lookup_eq_ok.1 found) built
    exact (Keeps.and_result (ih options s type built) (bears_compileWithin number depth options s type)).mono
      fun _ both => both.2

end

end Subject

/-! ## Verdicts -/

/-- What the predicate of a root is built for. -/
def Subject.ofRoot (options : CompileOptions) (a : Reading) : Subject :=
  if options.shortCircuit then .ofType options.superfluousPropertyCheck (a.1, .ofKeyword .any)
  else if options.valueMayBeAbsent then .optional options.superfluousPropertyCheck a
  else .ofType options.superfluousPropertyCheck a

/-- The validator of a type in a context. -/
def Context.Compiles (ctx : Context) (type : TypeId) (v : Validator) : Prop :=
  ∃ root registry, Gives (ctx.compileRoot type) .empty root registry ∧
    v = ⟨root, if ctx.options.inlineTrivialPredicates then
      Predicate.inlineTrivial registry.predicates root else registry.predicates, ctx.options⟩

theorem Context.Compiles.isSealed {ctx : Context} {type : TypeId} {v : Validator}
    (compiled : ctx.Compiles type v) : v.IsSealed := by
  obtain ⟨root, registry, outcome, rfl⟩ := compiled
  have plain := (compileRoot_seals ctx type).isSealed outcome ctx.options
  split
  · exact plain.inlined
  · exact plain

/-- The evaluation of a validator halts at the limit only. -/
theorem Context.Compiles.verdict_cases {ctx : Context} {type : TypeId} {v : Validator}
    (compiled : ctx.Compiles type v) (value : Value) :
    (∃ b, v.verdict value = .ok b) ∨ v.verdict value = .error .depthExceeded := by
  cases decided : v.verdict value with
  | ok b => exact .inl ⟨b, rfl⟩
  | error halt =>
    exact .inr (congrArg _ (compiled.isSealed.evaluateWithin Observer.silent maxCallDepth value () _ _
      (Prod.ext decided rfl)))

/-- Compiles a type in a context. -/
def Context.validator? (ctx : Context) (type : TypeId) : Option Validator :=
  match (ctx.compileRoot type).run.run .empty with
  | (.ok root, registry) =>
    some ⟨root, if ctx.options.inlineTrivialPredicates then
      Predicate.inlineTrivial registry.predicates root else registry.predicates, ctx.options⟩
  | (.error _, _) => none

theorem Context.compiles_of_validator? {ctx : Context} {type : TypeId} {v : Validator}
    (made : ctx.validator? type = some v) : ctx.Compiles type v := by
  unfold validator? at made
  split at made
  · rename_i root registry outcome
    exact ⟨root, registry, outcome, (Option.some.inj made).symm⟩
  · cases made

/-- A verdict that is computed is one of a validator. -/
theorem Context.exists_compiles {ctx : Context} {type : TypeId} {value : Value} {b : Bool}
    (computed : (ctx.validator? type).bind (fun v => (v.verdict value).toOption) = some b) :
    ∃ v, ctx.Compiles type v ∧ v.verdict value = .ok b := by
  obtain ⟨v, made, decided⟩ := Option.bind_eq_some_iff.1 computed
  exact ⟨v, compiles_of_validator? made, toOption_eq_some.1 decided⟩

section
variable {arena : Arena} (number : arena.lookup? (.ofKeyword .number) = some (.keyword .number))
include number

/-- The predicate of a root is found under a name of the root, and the predicates that are built decide. -/
theorem Subject.compileRoot_decides {root : Subject} (apart : ToldApart arena root)
    (options : CompileOptions) (s : Substitution) (type : TypeId)
    (built : IsBuilt arena root (.ofRoot options (s, type))) :
    KeepsDeciding (Means arena root) (Context.compileRoot ⟨arena, options, s⟩ type) fun name =>
      ∃ own, Bears arena own (.ofRoot options (s, type)) name := by
  unfold Context.compileRoot
  unfold ofRoot at built ⊢
  cases short : options.shortCircuit with
  | true =>
    simp only [short, if_true] at built ⊢
    exact compileWithin_decides number apart _ options s _ built
  | false =>
    simp only [short, Bool.false_eq_true, if_false] at built ⊢
    cases absent : options.valueMayBeAbsent with
    | false =>
      simp only [absent, Bool.false_eq_true, if_false] at built ⊢
      exact (compileWithin_decides number apart _ options s type built).bind fun name bears => .pure bears
    | true =>
      simp only [absent, if_true] at built ⊢
      have part : IsBuilt arena root (.ofType options.superfluousPropertyCheck (s, type)) :=
        .tail built (.optional _ _)
      refine (compileWithin_decides number apart _ options s type part).bind fun name ⟨own, bears⟩ => ?_
      refine (Build.optional_decides (stands number apart part bears)
        (stands number apart built (.optional bears))).mono ?_
      rintro _ rfl
      exact ⟨true, .optional bears⟩

/-- The validator is that of a subject which is built for some root in some context, where subjects are told
apart. -/
inductive Validator.Serves (arena : Arena) (subject : Subject) : Validator → Prop
  | intro {options : CompileOptions} {s : Substitution} {type : TypeId} {v : Validator} {own : Bool}
      {name : String} (compiled : Context.Compiles ⟨arena, options, s⟩ type v)
      (apart : Subject.ToldApart arena (.ofRoot options (s, type)))
      (built : Subject.IsBuilt arena (.ofRoot options (s, type)) subject)
      (bears : Subject.Bears arena own subject name) : Serves arena subject { v with root := name }

/-- A validator accepts the values that its subject has. -/
theorem Validator.Serves.verdict_iff {subject : Subject} {v : Validator} (serves : v.Serves arena subject)
    {value : Value} {b : Bool} (decided : v.verdict value = .ok b) :
    b = true ↔ subject.Contains arena value := by
  cases serves with
  | @intro options s type v own name compiled apart built bears =>
    obtain ⟨root, registry, outcome, rfl⟩ := compiled
    have holds := (Subject.compileRoot_decides number apart options s type .refl _ _ _ outcome
      Registry.holds_empty).1
    have tidy := (compileRoot_tidy _ type _ _ _ outcome Registry.holds_empty).1
    have decide : Predicate.AllDecide (Subject.Means arena (.ofRoot options (s, type)))
        registry.predicates := fun p inside => ⟨holds.good inside, tidy.good inside⟩
    refine (Validator.verdict_iff ?_ decided).trans (Subject.stands number apart built bears value)
    dsimp only
    split
    · exact decide.inlineTrivial root
    · exact decide

/-- The validator of a root serves the root. -/
theorem Context.Compiles.serves {options : CompileOptions} {s : Substitution} {type : TypeId}
    {v : Validator} (compiled : Context.Compiles ⟨arena, options, s⟩ type v)
    (apart : Subject.ToldApart arena (.ofRoot options (s, type))) :
    v.Serves arena (.ofRoot options (s, type)) := by
  obtain ⟨root, registry, outcome, rfl⟩ := id compiled
  obtain ⟨own, bears⟩ := (Subject.compileRoot_decides number apart options s type .refl _ _ _ outcome
    Registry.holds_empty).2
  exact .intro compiled apart .refl bears

/-- A validator that is compiled in a context where names are told apart accepts the values of its type. -/
theorem Context.verdict_iff_contains {options : CompileOptions} {s : Substitution} {type : TypeId}
    {v : Validator} (compiled : Context.Compiles ⟨arena, options, s⟩ type v)
    (apart : Subject.ToldApart arena (.ofRoot options (s, type))) {value : Value} {b : Bool}
    (decided : v.verdict value = .ok b) :
    b = true ↔ (Subject.ofRoot options (s, type)).Contains arena value :=
  (compiled.serves number apart).verdict_iff number decided

end

end ShapeCheck
