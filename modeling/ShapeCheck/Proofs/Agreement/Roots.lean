import ShapeCheck.Proofs.Agreement.Registries
import ShapeCheck.Proofs.Evaluation.Alternatives
import ShapeCheck.Proofs.Inlining.Reversal
import ShapeCheck.Proofs.Semantics.Correctness

set_option autoImplicit false

/-! # What a root does

Whether its trivial predicates are written out or not, and whether the value may be absent or not: a validator
that rejects a value has called the predicate of its type, as it was compiled, and the events of that call are
those of the validator, up to the visits around it. Such a call does the same in every validator that has the
predicate, whatever else was compiled there, if predicates of one name are the same.

Main facts: `Validator.IsSealed.invoke_refines`, `Context.Builds.agreesWith` and
`Context.Compiles.exists_builds`.
-/

namespace ShapeCheck

/-! ## Calls of shared predicates -/

/-- Predicates of one name are the same. -/
def Validator.AgreesWith (v w : Validator) : Prop :=
  ∀ p ∈ v.predicates, ∀ q ∈ w.predicates, p.name = q.name → p = q

/-- What a call decides in one validator, it decides in another one that has the predicate and all that it
calls. -/
theorem Validator.IsSealed.invoke_refines {σ : Type} {observe : Observer σ} {v w : Validator} (whole : w.IsSealed)
    (agree : v.AgreesWith w) (depth : Nat) {name : String} (known : name ∈ w.predicates.map Predicate.name)
    (x : Located) : Refines (v.invoke observe depth name x) (w.invoke observe depth name x) := by
  induction depth generalizing name x with
  | zero => exact invoke_zero_refines _ name x _
  | succ depth ih =>
    rw [invoke_succ, invoke_succ]
    cases found : v.predicate? name with
    | none => exact .throw _ _
    | some p =>
      obtain ⟨inside, rfl⟩ := predicate?_eq_some found
      obtain ⟨q, listed, same⟩ := List.mem_map.1 known
      obtain rfl := agree p inside q listed same.symm
      rw [predicate?_of_mem whole.distinct listed]
      exact Predicate.run_refines_of_calls (fun f called y => ih (whole.calls p listed f called) y) x

/-! ## Compiled types -/

/-- A predicate that is stored is there. -/
theorem Registry.mem_predicates_complete (r : Registry) (p : Predicate) : p ∈ (r.complete p).predicates := by
  obtain ⟨entry, listed, same⟩ := List.mem_map.1 (contains_iff.1 (r.contains_reserve p.name))
  exact List.mem_filterMap.2 ⟨_, List.mem_map_of_mem listed, by simp [same]⟩

/-- A union with members asks for one of their predicates. -/
theorem unionCheck_eq_anyOf {compile : Context → TypeId → Build String} {ctx : Context} {members : List TypeId}
    (some : members ≠ []) : unionCheck compile ctx members = (do
      return .anyOf ((← members.mapM (compile ctx)).eraseDups.map Expr.callOn)) := by
  simp [unionCheck, memberCalls, some]

/-- The predicates that are compiled for a type, before any is written out, with that of the type for the
root. -/
def Context.Builds (ctx : Context) (type : TypeId) (v : Validator) : Prop :=
  ∃ root registry, Gives (ctx.compile type) .empty root registry ∧ v = ⟨root, registry.predicates, ctx.options⟩

namespace Context.Builds

theorem isSealed {ctx : Context} {type : TypeId} {v : Validator} (h : ctx.Builds type v) : v.IsSealed := by
  obtain ⟨root, registry, outcome, rfl⟩ := h
  exact (compileWithin_seals _ [] ctx type).isSealed outcome ctx.options

section
variable {arena : Arena} (number : arena.lookup? (.ofKeyword .number) = some (.keyword .number))
  {options : CompileOptions} {s : Substitution} {type : TypeId} {v : Validator}
include number

theorem bears (h : Context.Builds ⟨arena, options, s⟩ type v) :
    ∃ own, Subject.Bears arena own (.ofType options.superfluousPropertyCheck (s, type)) v.root := by
  obtain ⟨root, registry, outcome, rfl⟩ := h
  exact (Subject.bears_compileWithin number _ options s type _ _ _ outcome trivial).2

/-- The predicate of a union asks for one of the predicates of its members. -/
theorem exists_alternatives (h : Context.Builds ⟨arena, options, s⟩ type v) {members : List TypeId}
    (found : arena.lookup? type = some (.union members)) (some : members ≠ []) :
    ∃ names, List.Forall₂ (fun member name =>
        ∃ own, Subject.Bears arena own (.ofType options.superfluousPropertyCheck (s, member)) name) members names ∧
      v.predicate? v.root =
        .some ⟨v.root, Expr.parameterName, [.result (.anyOf (names.eraseDups.map Expr.callOn))], none⟩ := by
  have distinct := h.isSealed.distinct
  obtain ⟨root, registry, outcome, rfl⟩ := h
  obtain ⟨depth, deep⟩ : ∃ depth, maxUnfoldingDepth = depth + 1 := ⟨999999999, rfl⟩
  rw [Context.compile, deep] at outcome
  obtain ⟨descriptor, found', outcome⟩ := Build.gives_lift_bind.1 outcome
  obtain rfl := Option.some.inj (found.symm.trans (Arena.lookup_eq_ok.1 found'))
  obtain ⟨name, -, outcome⟩ := Build.gives_lift_bind.1 outcome
  obtain ⟨rfl, stmts, u, built, rfl⟩ := Build.gives_ensure_fresh (r := .empty) Bool.false_ne_true outcome
  obtain ⟨e, u, checked, rest⟩ := gives_bind.1 built
  obtain ⟨rfl, rfl⟩ := gives_pure.1 rest
  rw [unionCheck_eq_anyOf some] at checked
  obtain ⟨names, u, compiled, rest⟩ := gives_bind.1 checked
  obtain ⟨rfl, rfl⟩ := gives_pure.1 rest
  refine ⟨names, ?_, Validator.predicate?_of_mem distinct (u.mem_predicates_complete _)⟩
  exact (Keeps.mapM (I := fun _ => True) (fun member _ => Subject.bears_compileWithin number depth options s member)
    _ _ _ compiled trivial).2

variable {root : Subject} (apart : Subject.ToldApart arena root)
include apart

/-- All predicates are made for subjects of any root for whose sake the type is compiled. -/
theorem isMade (h : Context.Builds ⟨arena, options, s⟩ type v)
    (built : Subject.IsBuilt arena root (.ofType options.superfluousPropertyCheck (s, type))) {p : Predicate}
    (inside : p ∈ v.predicates) : Subject.IsMade arena options.ignoreMethods root p := by
  obtain ⟨name, registry, outcome, rfl⟩ := h
  exact (Subject.holds_isMade_compileWithin number apart rfl built _ outcome).good inside

/-- Types that are compiled for the sake of one root have the same predicates under the names they share. -/
theorem agreesWith {type' : TypeId} {w : Validator} (h : Context.Builds ⟨arena, options, s⟩ type v)
    (h' : Context.Builds ⟨arena, options, s⟩ type' w)
    (built : Subject.IsBuilt arena root (.ofType options.superfluousPropertyCheck (s, type)))
    (built' : Subject.IsBuilt arena root (.ofType options.superfluousPropertyCheck (s, type'))) : v.AgreesWith w :=
  fun _ inside _ inside' => (h.isMade number apart built inside).eq_of_name number apart
    (h'.isMade number apart built' inside')

end

end Context.Builds

/-! ## Roots -/

/-- The name of a root whose type has this name. -/
def CompileOptions.rootName (options : CompileOptions) (name : String) : String :=
  if options.valueMayBeAbsent then optionalName name else name

theorem CompileOptions.rootName_injective (options : CompileOptions) {name name' : String}
    (same : options.rootName name = options.rootName name') : name = name' := by
  unfold rootName at same
  split at same
  · exact optionalName_injective same
  · exact same

/-- The events of a root that rejects, where these are those of the call of its type. -/
def CompileOptions.rejection (options : CompileOptions) (name : String) (events : List Event) : List Event :=
  let visited := Event.visit false name events
  if options.valueMayBeAbsent then Event.visit false (optionalName name) visited else visited

/-- Unless everything is accepted, a root is compiled as a part that may be optional. -/
theorem Context.compileRoot_eq_compilePart {ctx : Context} (long : ctx.options.shortCircuit = false) (type : TypeId) :
    ctx.compileRoot type =
      compilePart (compileWithin maxUnfoldingDepth) ctx type ctx.options.valueMayBeAbsent := by
  rw [compileRoot, long, if_neg Bool.false_ne_true]
  rfl

theorem Subject.ofRoot_eq_ofChoice {options : CompileOptions} (long : options.shortCircuit = false) (a : Reading) :
    Subject.ofRoot options a = .ofChoice options.superfluousPropertyCheck ⟨a, options.valueMayBeAbsent⟩ := by
  rw [ofRoot, long, if_neg Bool.false_ne_true]
  rfl

/-- The predicate of a type is built for the sake of its root. -/
theorem Subject.isBuilt_ofRoot {arena : Arena} {options : CompileOptions} (long : options.shortCircuit = false)
    (a : Reading) : IsBuilt arena (.ofRoot options a) (.ofType options.superfluousPropertyCheck a) := by
  rw [ofRoot, long, if_neg Bool.false_ne_true]
  split
  · exact .single (.optional _ a)
  · exact .refl

/-- Under the name of a root that may be absent is the predicate that is made for it. -/
theorem Validator.IsSealed.predicate?_optional {arena : Arena} {ignoreMethods exact own : Bool} {root : Subject}
    {a : Reading} {v : Validator} {inner : String}
    (number : arena.lookup? (.ofKeyword .number) = some (.keyword .number))
    (apart : Subject.ToldApart arena root) (whole : v.IsSealed)
    (good : ∀ p ∈ v.predicates, Subject.IsMade arena ignoreMethods root p)
    (built : Subject.IsBuilt arena root (.optional exact a)) (below : Subject.Bears arena own (.ofType exact a) inner)
    (named : v.root = optionalName inner) :
    v.predicate? v.root = some ⟨optionalName inner, Expr.parameterName,
      [.result (.or [.strictEq .parameter .undefined, .callOn inner])], none⟩ := by
  have made : Subject.IsMade arena ignoreMethods root ⟨optionalName inner, Expr.parameterName,
      [.result (.or [.strictEq .parameter .undefined, .callOn inner])], none⟩ :=
    ⟨.optional exact a, built, .optional below, .optional below⟩
  obtain ⟨p, inside, same⟩ := List.mem_map.1 whole.root
  obtain rfl := (good p inside).eq_of_name number apart made (same.trans named)
  rw [named]
  exact predicate?_of_mem whole.distinct inside

namespace Context.Compiles

variable {v : Validator} {value : Value} {b : Bool}

/-- What a validator does is what a call of its root does before any predicate is written out. -/
theorem exists_call {ctx : Context} {type : TypeId} (compiled : ctx.Compiles type v)
    (decided : v.verdict value = .ok b) :
    ∃ registry depth events, Gives (ctx.compileRoot type) .empty v.root registry ∧
      Gives (Validator.invoke ⟨v.root, registry.predicates, ctx.options⟩ Observer.log depth v.root (.whole value))
        [] b events ∧ v.events value = Event.visit b v.root events := by
  have ran : Gives (v.evaluateWithin Observer.log maxCallDepth value) [] b (v.events value) :=
    Prod.ext ((v.evaluate_fst Observer.log [] value).trans decided) rfl
  generalize v.events value = all at ran ⊢
  obtain ⟨root, registry, outcome, rfl⟩ := compiled
  have tidy := (compileRoot_tidy ctx type _ _ _ outcome Registry.holds_empty).1
  obtain ⟨depth, ran⟩ : ∃ depth, Gives (Validator.evaluateWithin ⟨root, registry.predicates, ctx.options⟩
      Observer.log depth value) [] b all := by
    cases inline : ctx.options.inlineTrivialPredicates with
    | false =>
      simp only [inline, Bool.false_eq_true, if_false] at ran ⊢
      exact ⟨_, ran⟩
    | true =>
      simp only [inline, if_true] at ran ⊢
      exact ⟨_, Validator.evaluateWithin_of_inlined tidy.distinct_predicates (fun p inside => tidy.good inside)
        _ value _ _ _ ran⟩
  obtain ⟨log, called, traced⟩ := Validator.gives_evaluateWithin.1 ran
  obtain ⟨events, alone, rfl⟩ := Validator.exists_log_of_gives called
  exact ⟨registry, depth, events, outcome, alone, traced.symm⟩

section
variable {arena : Arena} (number : arena.lookup? (.ofKeyword .number) = some (.keyword .number))
  {options : CompileOptions} {s : Substitution} {type : TypeId}
  (apart : Subject.ToldApart arena (.ofRoot options (s, type))) (long : options.shortCircuit = false)
include number apart long

/-- Where a value is rejected, the predicate of the type rejects it in what is compiled for the type alone. -/
theorem exists_builds (compiled : Context.Compiles ⟨arena, options, s⟩ type v)
    (rejected : v.verdict value = .ok false) :
    ∃ core depth events, Context.Builds ⟨arena, options, s⟩ type core ∧
      Gives (core.invoke Observer.log depth core.root (.whole value)) [] false events ∧
        v.root = options.rootName core.root ∧ v.events value = options.rejection core.root events := by
  obtain ⟨registry, depth, events, outcome, ran, traced⟩ := compiled.exists_call rejected
  have whole := (compileRoot_seals ⟨arena, options, s⟩ type).isSealed outcome options
  rw [compileRoot_eq_compilePart long] at outcome
  have built : Subject.IsBuilt arena (.ofRoot options (s, type))
      (.ofChoice options.superfluousPropertyCheck ⟨(s, type), options.valueMayBeAbsent⟩) := by
    rw [Subject.ofRoot_eq_ofChoice long]
    exact .refl
  have holds := Subject.holds_isMade_compilePart number apart rfl built _ outcome
  obtain ⟨inner, u, made, rest⟩ := gives_bind.1 outcome
  have core : Context.Builds ⟨arena, options, s⟩ type ⟨inner, u.predicates, options⟩ := ⟨inner, u, made, rfl⟩
  cases absent : options.valueMayBeAbsent with
  | false =>
    rw [absent, if_neg Bool.false_ne_true] at rest
    obtain ⟨same, rfl⟩ := gives_pure.1 rest
    rw [← same] at ran traced ⊢
    exact ⟨_, depth, events, core, ran, by simp [CompileOptions.rootName, absent],
      by simp [CompileOptions.rejection, absent, traced]⟩
  | true =>
    rw [absent, if_pos rfl] at rest
    have named : v.root = optionalName inner := (Build.keeps_ensure _ _ _ _ _ _ rest trivial).2
    rw [absent] at built
    rw [named] at ran traced whole ⊢
    obtain ⟨own, below⟩ := core.bears number
    have found := whole.predicate?_optional number apart (fun p inside => holds.good inside) built below rfl
    obtain ⟨depth, called, alone, rfl⟩ := Validator.exists_of_gives_optional found rfl rfl rfl ran
    have agree : Validator.AgreesWith ⟨optionalName inner, registry.predicates, options⟩
        ⟨inner, u.predicates, options⟩ := fun _ here _ there =>
      (holds.good here).eq_of_name number apart (core.isMade number apart (Subject.isBuilt_ofRoot long _) there)
    refine ⟨_, depth, called, core, core.isSealed.invoke_refines agree depth core.isSealed.root _ _ _ _ alone, ?_, ?_⟩
    · rw [CompileOptions.rootName, absent, if_pos rfl]
    · rw [traced, CompileOptions.rejection, absent, if_pos rfl]

end

end Context.Compiles

end ShapeCheck
