import ShapeCheck.Proofs.Compilation.Tidy
import ShapeCheck.Proofs.Inlining.Reports
import ShapeCheck.Proofs.Meaning.Strategies

set_option autoImplicit false

/-! # Compiled checks decide types

The predicates of a compilation decide what their names mean, so the validator of a type accepts
exactly the values of the type, for every family that satisfies the type equations. Two inductions
carry this: one on the depth within which types are compiled, and one on the depth to which calls are
nested. Rounds of inlining lie between them and keep the predicates deciding.

Main fact: `Arena.verdict_compile_iff`.
-/

namespace ShapeCheck

/-! ## Compilation -/

/-- What is collected for a type that is built are its keys. -/
theorem tells_collectKeys {arena : Arena} {root : Goal} (plain : arena.IsMonomorphic root)
    {options : CompileOptions} {depth : Nat} {type : TypeId} {exact : Bool}
    (built : Goal.IsBuilt arena root (.ofType type exact)) {keys? : KeySet}
    (collected : (Context.root arena options).collectKeys depth type = .ok keys?) :
    keys?.Tells arena type := by
  refine collectKeysWithin_spec (fun t => ∃ e, Goal.IsBuilt arena root (.ofType t e))
    (fun t ⟨e, here⟩ => plain t e here) ?_ depth _ rfl ⟨exact, built⟩ collected
  rintro t ⟨e, here⟩ source inside
  unfold Arena.keySources at inside
  split at inside
  · exact ⟨_, here.step (.union ‹_› inside)⟩
  · exact ⟨_, here.step (.intersection ‹_› inside)⟩
  · rename_i target arguments found
    obtain ⟨definition, leads, given⟩ := Option.bind_eq_some_iff.1 (Option.mem_toList.1 inside)
    exact ⟨_, here.step (.reference found leads given)⟩
  · cases inside

section
variable {arena : Arena} {root : Goal} {A : TypeId → Bool → Value → Prop}
  (plain : arena.IsMonomorphic root) (agrees : arena.Agrees root A) (solves : arena.Solves root A)
include agrees

/-- The name of a goal stands for its values. -/
theorem Goal.stands {goal : Goal} (built : IsBuilt arena root goal) {name : String}
    (named : goal.IsNamed arena name) :
    Stands (arena.Means root A) (fun v => goal.Admits A v) name :=
  Arena.means_iff agrees built named

include solves in
/-- The name of a type stands for the equation of the type. -/
theorem Descriptor.admits_iff_means {type : TypeId} {exact : Bool} {descriptor : Descriptor}
    {name : String} (built : Goal.IsBuilt arena root (.ofType type exact))
    (found : arena.lookup? type = some descriptor)
    (named : Goal.IsNamed arena name (.ofType type exact)) (v : Value) :
    descriptor.Admits A exact v arena type ↔ arena.Means root A name v := by
  rw [Arena.means_iff agrees built named, Goal.Admits, solves type exact built v]
  simp only [Arena.Admits, found, Option.some.injEq, exists_eq_left']

variable {depth : Nat} {compile : Context → TypeId → Build String}
  (compiled : ∀ (options : CompileOptions) (type : TypeId),
    Goal.IsBuilt arena root (.ofType type options.superfluousPropertyCheck) →
      KeepsDeciding (arena.Means root A) (compile (.root arena options) type)
        fun name => Goal.IsNamed arena name (.ofType type options.superfluousPropertyCheck))
include compiled

theorem compile_stands {options : CompileOptions} {type : TypeId}
    (built : Goal.IsBuilt arena root (.ofType type options.superfluousPropertyCheck)) :
    KeepsDeciding (arena.Means root A) (compile (.root arena options) type)
      (Stands (arena.Means root A) (A type options.superfluousPropertyCheck)) :=
  (compiled options type built).mono fun _ named => Goal.stands agrees built named

theorem compilePart_stands_of_built {options : CompileOptions} {type : TypeId} {optional : Bool}
    (built : Goal.IsBuilt arena root
      (if optional then .optional type options.superfluousPropertyCheck
        else .ofType type options.superfluousPropertyCheck)) :
    KeepsDeciding (arena.Means root A)
      (compilePart compile (.root arena options) type optional)
      (Stands (arena.Means root A) fun v =>
        (optional = true ∧ v = .undefined) ∨ A type options.superfluousPropertyCheck v) := by
  have part : Goal.IsBuilt arena root (.ofType type options.superfluousPropertyCheck) := by
    cases optional with
    | true => exact Goal.IsBuilt.step built (.optional _ _)
    | false => exact built
  refine compilePart_stands ((compiled options type part).mono fun name named => ?_)
  refine ⟨Goal.stands agrees part named, ?_⟩
  rintro rfl
  exact Goal.stands agrees built ⟨name, named, rfl⟩

include plain in
/-- A reference to a definition decides what the body of the definition decides. -/
theorem referenceBody_decides {options : CompileOptions} {type : TypeId} {target : DefinitionId}
    {arguments : List TypeId} (found : arena.lookup? type = some (.reference target arguments))
    (built : Goal.IsBuilt arena root (.ofType type options.superfluousPropertyCheck))
    {definition : Definition} (leads : arena.definition? target = some definition) :
    KeepsDeciding (arena.Means root A)
      (referenceBody compile (.root arena options) definition arguments)
      fun stmts => Stmt.Tell (arena.Means root A) stmts fun v =>
        (Descriptor.reference target arguments).Admits A options.superfluousPropertyCheck v arena
          type := by
  have simple := plain type _ built _ found definition leads
  cases given : definition.body with
  | none =>
    unfold referenceBody
    rw [Context.enter_of_monomorphic _ simple]
    simp only [Definition.requireBody, given]
    exact .throw _
  | some body =>
    have part := compile_stands agrees compiled
      (built.step (.reference found leads given))
    refine (referenceBody_tell simple given part).mono fun stmts tell => tell.congr fun v => ?_
    simp only [Descriptor.Admits, leads, Option.some.injEq, exists_and_left, exists_eq_left', given]
    rfl

include plain solves in
/-- The predicate of a descriptor decides its equation. -/
theorem compileDescriptor_decides (small : depth ≤ maxUnfoldingDepth) {options : CompileOptions}
    {type : TypeId} {descriptor : Descriptor} (found : arena.lookup? type = some descriptor)
    (built : Goal.IsBuilt arena root (.ofType type options.superfluousPropertyCheck)) :
    KeepsDeciding (arena.Means root A)
      (compileDescriptor depth compile (.root arena options) type descriptor)
      fun name => Goal.IsNamed arena name (.ofType type options.superfluousPropertyCheck) := by
  have monomorphic := plain type _ built descriptor found
  have isNamed {name : String} (made : (Context.root arena options).nameOf depth type = .ok name) :
      Goal.IsNamed arena name (.ofType type options.superfluousPropertyCheck) :=
    Arena.isNamed_ofType small made
  have same {name : String} (made : (Context.root arena options).nameOf depth type = .ok name) :=
    Descriptor.admits_iff_means agrees solves built found (isNamed made)
  have part {part : TypeId} (needed : Goal.Needs arena
      (.ofType type options.superfluousPropertyCheck)
        (.ofType part options.superfluousPropertyCheck)) :=
    compile_stands agrees compiled (built.step needed)
  unfold compileDescriptor
  split
  · rename_i leaf isLeaf
    have made : (Context.root arena options).nameOf 1 type = .ok leaf.name := by
      show typeNameWithin arena 1 [] options.superfluousPropertyCheck type = .ok leaf.name
      rw [typeNameWithin, Arena.lookup_eq_ok.2 found]
      exact descriptor.leaf?_name isLeaf arena _ _ _
    have named : Goal.IsNamed arena leaf.name (.ofType type options.superfluousPropertyCheck) :=
      Arena.isNamed_ofType (by decide) made
    refine (Build.ensureExpr_decides
      (Descriptor.admits_iff_means agrees solves built found named)
      (.pure (Descriptor.leaf?_tells isLeaf A _ arena type))).mono ?_
    rintro _ rfl
    exact named
  cases descriptor with
  | array element =>
    refine Keeps.lift_bind fun name made => ?_
    refine (Build.ensure_decides (same made) (arrayBody_tell (part (.array found)))).mono ?_
    rintro _ rfl
    exact isNamed made
  | tuple elements =>
    refine Keeps.lift_bind fun name made => ?_
    refine (Build.ensureExpr_decides (same made) (tupleCheck_tells fun element inside => ?_)).mono ?_
    · exact compilePart_stands_of_built agrees compiled
        (built.step (.element found inside))
    · rintro _ rfl
      exact isNamed made
  | object shape =>
    refine Keeps.lift_bind fun name made => ?_
    refine (Build.ensure_decides (same made) (objectBody_tell
      (fun property inside texts field part' declared =>
        part (.property found inside texts field declared))
      fun part' declared => part (.index found declared))).mono ?_
    rintro _ rfl
    exact isNamed made
  | union members =>
    refine Keeps.lift_bind fun name made => ?_
    refine (Build.ensureExpr_decides (same made)
      (unionCheck_tells monomorphic fun member inside => part (.union found inside))).mono ?_
    rintro _ rfl
    exact isNamed made
  | intersection members =>
    refine Keeps.lift_bind fun name made => ?_
    have member {member : TypeId} (inside : member ∈ members) :
        KeepsDeciding (arena.Means root A)
          (compile ((Context.root arena options).withExact false) member)
          (Stands (arena.Means root A) (A member false)) := by
      have part := built.step (.intersection found inside)
      refine (compiled { options with superfluousPropertyCheck := false } member part).mono ?_
      exact fun _ named => Goal.stands agrees part named
    refine (Build.ensureExpr_decides (same made) (intersectionCheck_tells (fun _ => member)
      (fun _ => tells_collectKeys plain built) fun exact keys collected => ?_)).mono ?_
    · have exact : options.superfluousPropertyCheck = true := exact
      rw [exact] at built
      exact Goal.stands agrees (built.step (.keys found collected)) rfl
    · rintro _ rfl
      exact isNamed made
  | reference target arguments =>
    refine Keeps.lift_bind fun definition leads => Keeps.lift_bind fun name made => ?_
    refine (Build.ensure_decides (same made) (referenceBody_decides plain agrees compiled
      found built (Arena.target_eq_ok.1 leads))).mono ?_
    rintro _ rfl
    exact isNamed made
  | parameter | indexAccess | keyof => exact monomorphic.elim
  | _ => exact .throw _

include plain solves in
omit compiled in
/-- The predicates that are built decide what their names mean. -/
theorem compileWithin_decides (small : depth ≤ maxUnfoldingDepth) (options : CompileOptions)
    (type : TypeId) (built : Goal.IsBuilt arena root (.ofType type options.superfluousPropertyCheck)) :
    KeepsDeciding (arena.Means root A) (compileWithin depth (.root arena options) type)
      fun name => Goal.IsNamed arena name (.ofType type options.superfluousPropertyCheck) := by
  induction depth generalizing options type with
  | zero => exact .throw _
  | succ depth ih =>
    refine Keeps.lift_bind fun descriptor found => ?_
    exact compileDescriptor_decides plain agrees solves (ih (by omega)) (by omega)
      (Arena.lookup_eq_ok.1 found) built

include plain solves in
omit compiled in
/-- The predicate of a root is named for it, and the predicates that are built decide. -/
theorem compileRoot_decides {options : CompileOptions} (running : options.shortCircuit = false)
    {type : TypeId} (built : Goal.IsBuilt arena root (.ofRoot options type)) :
    KeepsDeciding (arena.Means root A) ((Context.root arena options).compileRoot type)
      fun name => (Goal.ofRoot options type).IsNamed arena name := by
  have compiled := compileWithin_decides plain agrees solves le_rfl options type
  unfold Context.compileRoot
  rw [if_neg (by simp [Context.root, running])]
  cases absent : options.valueMayBeAbsent with
  | false =>
    simp only [Goal.ofRoot, Context.root, absent, Bool.false_eq_true, if_false] at built ⊢
    exact (compiled built).bind fun name named => .pure named
  | true =>
    simp only [Goal.ofRoot, Context.root, absent, if_true] at built ⊢
    have part := built.step (.optional type options.superfluousPropertyCheck)
    refine (compiled part).bind fun name named => ?_
    have wrapped : Goal.IsNamed arena (optionalName name)
        (.optional type options.superfluousPropertyCheck) := ⟨name, named, rfl⟩
    refine (Build.optional_decides (Goal.stands agrees part named)
      (Goal.stands agrees built wrapped)).mono ?_
    rintro _ rfl
    exact wrapped

end

/-! ## Evaluation -/

namespace Predicate

variable {M : String → Value → Prop}

/-- The predicates decide what their names mean, and have the form of compiled ones. -/
def AllDecide (M : String → Value → Prop) (predicates : List Predicate) : Prop :=
  ∀ p ∈ predicates, p.Decides M ∧ p.IsTidy

/-- Trivial predicates may be served by their bodies. -/
theorem answers_served {predicates : List Predicate} (decide : AllDecide M predicates)
    {call : String → Located → Run Unit Bool} (answers : Answers M call) :
    Answers M (served Observer.silent (trivialBodies predicates) call) := by
  intro f x
  unfold served
  split
  · rename_i callee known
    obtain ⟨p, inside, rfl, found⟩ := lookup_trivialBodies known
    rw [← run_of_trivialBody found]
    exact (decide p inside).1 call answers x
  · exact answers f x

/-- A round keeps predicates deciding. -/
theorem AllDecide.round {predicates : List Predicate} (decide : AllDecide M predicates) :
    AllDecide M (predicates.map (inlineRound (trivialBodies predicates))) := by
  have areTrivial := areTrivial_trivialBodies predicates
  have areTidy := areTidy_trivialBodies fun p inside => (decide p inside).2
  intro _ made
  obtain ⟨p, inside, rfl⟩ := List.mem_map.1 made
  obtain ⟨decides, tidy⟩ := decide p inside
  refine ⟨fun call answers x s b t outcome => ?_, tidy.inlineRound areTrivial areTidy⟩
  have unfolded : Refines
      ((p.mapExprs (Expr.inlineCalls (trivialBodies predicates))).run Observer.silent call x)
      ((p.mapExprs id).run Observer.silent
        (served Observer.silent (trivialBodies predicates) call) x) :=
    run_mapExprs_refines (fun e listed frame _ => .of_eq
      (Expr.eval_inlineCalls_of_isTidy areTrivial areTidy e (tidy.exprs e listed) frame)) x
  rw [mapExprs_id] at unfolded
  exact decides _ (answers_served decide answers) x s b t (unfolded s b t outcome)

theorem AllDecide.inlineRounds {predicates : List Predicate} (decide : AllDecide M predicates)
    (fuel : Nat) : AllDecide M (Predicate.inlineRounds fuel predicates) := by
  induction fuel generalizing predicates with
  | zero => exact decide
  | succ fuel ih =>
    unfold Predicate.inlineRounds
    dsimp only
    split
    · exact ih decide.round
    · exact decide

theorem AllDecide.inlineTrivial {predicates : List Predicate} (decide : AllDecide M predicates)
    (root : String) : AllDecide M (Predicate.inlineTrivial predicates root) :=
  fun p inside => decide.inlineRounds _ p (mem_prune.1 inside).1

end Predicate

namespace Validator

variable {M : String → Value → Prop} {v : Validator}

/-- If the predicates decide what their names mean, then so do all calls, however deep. -/
theorem answers_invoke (decide : Predicate.AllDecide M v.predicates) (depth : Nat) :
    Answers M (v.invoke Observer.silent depth) := by
  induction depth with
  | zero => exact fun _ _ _ _ _ outcome => absurd outcome v.not_gives_invoke_zero
  | succ depth ih =>
    intro name x
    rw [invoke_succ]
    cases found : v.predicate? name with
    | none => exact .throw _
    | some p =>
      obtain ⟨inside, rfl⟩ := predicate?_eq_some found
      exact (decide p inside).1 _ ih x

theorem verdict_iff (decide : Predicate.AllDecide M v.predicates) {value : Value} {b : Bool}
    (decided : v.verdict value = .ok b) : b = true ↔ M v.root value := by
  obtain ⟨_, called, -⟩ := gives_evaluateWithin.1 (verdict_eq_ok.1 decided)
  exact (answers_invoke decide _ v.root (.whole value) _ _ _ called trivial).2

end Validator

/-! ## Verdicts -/

namespace Arena

section
variable {arena : Arena} {type : TypeId} {options : CompileOptions}
  {A : TypeId → Bool → Value → Prop} (running : options.shortCircuit = false)
  (plain : arena.IsMonomorphic (.ofRoot options type))
  (solves : arena.Solves (.ofRoot options type) A) {v : Validator}
  (compiled : arena.compile type options = .ok v) {value : Value} {b : Bool}
include running plain solves compiled

/-- In a compilation whose goals agree, the predicate of each goal decides it. -/
theorem verdict_iff_admits (agrees : arena.Agrees (.ofRoot options type) A) {goal : Goal}
    {name : String} (built : Goal.IsBuilt arena (.ofRoot options type) goal)
    (named : goal.IsNamed arena name) (decided : { v with root := name }.verdict value = .ok b) :
    b = true ↔ goal.Admits A value := by
  obtain ⟨root, registry, outcome, rfl⟩ := Arena.compile_eq_ok.1 compiled
  obtain ⟨holds, -⟩ := compileRoot_decides plain agrees solves running .root _ _ _ outcome
    Registry.holds_empty
  have tidy := (good_of_compileRoot outcome).2
  have decide : Predicate.AllDecide (arena.Means (.ofRoot options type) A) registry.predicates :=
    fun p inside => ⟨holds.good inside, tidy p inside⟩
  refine (Validator.verdict_iff ?_ decided).trans (means_iff agrees built named value)
  dsimp only
  split
  · exact decide.inlineTrivial root
  · exact decide

/-- The root of a compilation is named for its goal. -/
theorem isNamed_root (agrees : arena.Agrees (.ofRoot options type) A) :
    (Goal.ofRoot options type).IsNamed arena v.root := by
  obtain ⟨root, registry, outcome, rfl⟩ := Arena.compile_eq_ok.1 compiled
  exact (compileRoot_decides plain agrees solves running .root _ _ _ outcome Registry.holds_empty).2

end

end Arena

/-- A compiled validator accepts the values that its type admits, for every solution of the type
equations: the predicates of all types that are built stand for their equations, unless a name is
shared by different types. -/
theorem Arena.verdict_compile_iff {arena : Arena} {type : TypeId} {options : CompileOptions}
    {A : TypeId → Bool → Value → Prop} (running : options.shortCircuit = false)
    (plain : arena.IsMonomorphic (.ofRoot options type))
    (apart : arena.NamesApart (.ofRoot options type))
    (solves : arena.Solves (.ofRoot options type) A) {v : Validator}
    (compiled : arena.compile type options = .ok v) {value : Value} {b : Bool}
    (decided : v.verdict value = .ok b) :
    b = true ↔ (Goal.ofRoot options type).Admits A value := by
  have agrees := agrees_of_namesApart plain apart solves
  have named := isNamed_root running plain solves compiled agrees
  exact verdict_iff_admits running plain solves compiled agrees .root named decided

/-! ## A recursive type -/

/-- A chain of numbers: a number and possibly a further chain. -/
def chain : TypeId × Arena :=
  let (id, arena) := Arena.initial.declare "Chain" []
  let (type, arena) := arena.intern (.reference id [])
  let (body, arena) := arena.intern (.tuple [⟨.ofKeyword .number, false⟩, ⟨type, true⟩])
  (type, arena.define id body)

example : chain.2.typeName [] true chain.1 = .ok "exact Chain" := by decide +kernel

/-- The goals of a chain, with their names. -/
def chainGoals : List (Goal × String) :=
  [(.ofType ⟨14⟩ true, "exact Chain"), (.ofType ⟨15⟩ true, "[number, exact Chain?]"),
    (.ofType ⟨5⟩ true, "number"), (.optional ⟨14⟩ true, "optional<exact Chain>")]

theorem lookup?_chain :
    chain.2.lookup? ⟨14⟩ = some (.reference ⟨0⟩ []) ∧
      chain.2.lookup? ⟨15⟩ = some (.tuple [⟨⟨5⟩, false⟩, ⟨⟨14⟩, true⟩]) ∧
        chain.2.lookup? ⟨5⟩ = some (.keyword .number) ∧
          chain.2.definition? ⟨0⟩ = some ⟨"Chain", [], some ⟨15⟩, []⟩ := by
  decide +kernel

theorem mem_chainGoals {goal : Goal} (built : Goal.IsBuilt chain.2 (.ofType chain.1 true) goal) :
    goal ∈ chainGoals.map Prod.fst := by
  obtain ⟨reference, body, number, definition⟩ := lookup?_chain
  refine built.of_closed (by decide +kernel) fun goal part inside needs => ?_
  simp only [chainGoals, List.map_cons, List.map_nil, List.mem_cons, List.not_mem_nil, or_false]
    at inside
  rcases inside with rfl | rfl | rfl | rfl
  · cases needs with
    | reference found leads given =>
      obtain ⟨rfl, -⟩ := Descriptor.reference.inj (Option.some.inj (reference.symm.trans found))
      obtain rfl := Option.some.inj (definition.symm.trans leads)
      obtain rfl := Option.some.inj given
      simp [chainGoals]
    | _ => simp_all
  · cases needs with
    | element found inside =>
      obtain rfl := Descriptor.tuple.inj (Option.some.inj (body.symm.trans found))
      rcases List.mem_pair.1 inside with rfl | rfl <;> simp [chainGoals]
    | _ => simp_all
  · cases needs <;> simp_all
  · cases needs
    simp [chainGoals]

theorem mem_chainGoals_of_isNamed {goal : Goal} {name : String}
    (built : Goal.IsBuilt chain.2 (.ofType chain.1 true) goal) (named : goal.IsNamed chain.2 name) :
    (goal, name) ∈ chainGoals := by
  have reference : chain.2.typeName [] true ⟨14⟩ = .ok "exact Chain" := by decide +kernel
  have body : chain.2.typeName [] true ⟨15⟩ = .ok "[number, exact Chain?]" := by decide +kernel
  have number : chain.2.typeName [] true ⟨5⟩ = .ok "number" := by decide +kernel
  have listed := mem_chainGoals built
  simp only [chainGoals, List.map_cons, List.map_nil, List.mem_cons, List.not_mem_nil, or_false]
    at listed
  rcases listed with rfl | rfl | rfl | rfl
  · obtain rfl := Except.ok.inj (reference.symm.trans named)
    simp [chainGoals]
  · obtain rfl := Except.ok.inj (body.symm.trans named)
    simp [chainGoals]
  · obtain rfl := Except.ok.inj (number.symm.trans named)
    simp [chainGoals]
  · obtain ⟨inner, made, rfl⟩ := named
    obtain rfl := Except.ok.inj (reference.symm.trans made)
    decide

theorem chain_isMonomorphic : chain.2.IsMonomorphic (.ofType chain.1 true) := by
  intro type exact built descriptor found
  obtain ⟨reference, body, number, definition⟩ := lookup?_chain
  have listed := mem_chainGoals built
  simp only [chainGoals, List.map_cons, List.map_nil, List.mem_cons, List.not_mem_nil, or_false,
    Goal.ofType.injEq, reduceCtorEq] at listed
  rcases listed with ⟨rfl, -⟩ | ⟨rfl, -⟩ | ⟨rfl, -⟩
  · obtain rfl := Option.some.inj (reference.symm.trans found)
    intro target leads
    obtain rfl := Option.some.inj (definition.symm.trans leads)
    exact ⟨rfl, rfl⟩
  · obtain rfl := Option.some.inj (body.symm.trans found)
    trivial
  · obtain rfl := Option.some.inj (number.symm.trans found)
    trivial

theorem chain_namesApart : chain.2.NamesApart (.ofType chain.1 true) := by
  intro goal goal' name built built' named named' type exact same
  have distinct : ∀ one ∈ chainGoals, ∀ two ∈ chainGoals, one.2 = two.2 → one = two := by decide
  have one := distinct _ (mem_chainGoals_of_isNamed built named) _
    (mem_chainGoals_of_isNamed built' named') rfl
  exact ⟨exact, (Prod.mk.inj one).1 ▸ same⟩

/-- A chain of two links is one, for the largest family that satisfies the equations. -/
theorem verdict_compile_iff_chain :
    ∃ v value, chain.2.compile chain.1 { superfluousPropertyCheck := true } = .ok v ∧
      v.verdict value = .ok true ∧ chain.2.Largest chain.1 true value := by
  let value : Value := .array [.number (Double.ofNat 1), .array [.number (Double.ofNat 2)]]
  have accepts : ((chain.2.compile chain.1 { superfluousPropertyCheck := true }).toOption.bind
      fun v => (v.verdict value).toOption) = some true := by decide +kernel
  obtain ⟨v, compiled, decided⟩ := Option.bind_eq_some_iff.1 accepts
  rw [toOption_eq_some] at compiled decided
  refine ⟨v, value, compiled, decided, ?_⟩
  exact (Arena.verdict_compile_iff rfl chain_isMonomorphic chain_namesApart
    (fun type exact _ v => chain.2.largest_solves type exact v) compiled decided).1 rfl

end ShapeCheck
