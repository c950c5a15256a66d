import ShapeCheck.Proofs.Evaluation.Laws
import ShapeCheck.Proofs.Failing
import ShapeCheck.Proofs.Inlining.Reports
import ShapeCheck.Proofs.Sealing.Strategies

set_option autoImplicit false

/-! # Compiled validators are sealed

All names that a compilation reserves get their predicates, and these call no other names. Writing out
a call moves its argument and a body without calls to the place of the call, so no calls are new, and
pruning keeps what the kept predicates call. In a sealed validator evaluation never comes to a name
without a predicate.

Main fact: `Arena.isSealed_compile`.
-/

namespace ShapeCheck

/-- Names stand for one predicate each, and the names of the root and of all calls stand for one. -/
structure Validator.IsSealed (v : Validator) : Prop where
  distinct : (v.predicates.map Predicate.name).Nodup
  root : v.root ∈ v.predicates.map Predicate.name
  calls : ∀ p ∈ v.predicates, ∀ f ∈ p.calls, f ∈ v.predicates.map Predicate.name

/-! ## Finished registries -/

namespace Registry

variable {r : Registry}

/-- A name that does not wait for its predicate has one. -/
theorem Holds.exists_predicate {Good : Predicate → Prop} (h : r.Holds Good) {name : String}
    (there : r.contains name = true) (finished : r.isPending name = false) :
    name ∈ r.predicates.map Predicate.name := by
  obtain ⟨⟨key, found⟩, listed, rfl⟩ := List.mem_map.1 (contains_iff.1 there)
  cases found with
  | none =>
    have waiting : r.entries.lookup key = some none := by
      obtain ⟨before, after, split⟩ := List.append_of_mem listed
      refine List.lookup_eq_some_iff.2 ⟨before, after, split, fun entry earlier => ?_⟩
      -- the name stands once, so the entry is the one that a lookup finds
      have distinct := h.distinct
      rw [split, List.map_append, List.map_cons, List.nodup_append] at distinct
      have apart := distinct.2.2 _ (List.mem_map_of_mem earlier) key (by simp)
      simpa using Ne.symm apart
    simp [isPending, waiting] at finished
  | some p =>
    obtain ⟨rfl, -⟩ := h.finished key p listed
    exact List.mem_map_of_mem (List.mem_filterMap.2 ⟨_, listed, rfl⟩)

end Registry

namespace Seals

variable {m : Build String} (seals : Seals [] m usesName) {root : String} {registry : Registry}
  (made : Gives m .empty root registry)
include seals made

/-- At the end of a compilation no name is without a predicate. -/
theorem isPending (name : String) : registry.isPending name = false := by
  obtain ⟨-, extends_, -⟩ := seals _ _ _ made Registry.isSealed_empty nofun
  rw [Bool.eq_false_iff]
  exact fun waiting => absurd (extends_.pending name waiting) nofun

theorem isSealed (options : CompileOptions) :
    Validator.IsSealed ⟨root, registry.predicates, options⟩ := by
  obtain ⟨sealed_, -, used⟩ := seals _ _ _ made Registry.isSealed_empty nofun
  have finished := seals.isPending made
  exact {
    distinct := sealed_.distinct_predicates
    root := sealed_.exists_predicate (used root (by simp)) (finished root)
    calls := fun p inside f called =>
      sealed_.exists_predicate (sealed_.good inside f called) (finished f) }

end Seals

/-! ## Inlining -/

namespace Expr

theorem mem_calls_substitute {name f : String} {argument : Expr} (e : Expr) :
    f ∈ (e.substitute name argument).calls → f ∈ e.calls ∨ f ∈ argument.calls := by
  induction e using operandInduction with
  | step e ih =>
    intro called
    have below (a : Expr) (ha : a ∈ e.operands) (h : f ∈ (a.substitute name argument).calls) :
        f ∈ e.calls ∨ f ∈ argument.calls :=
      (ih a ha h).imp_left (mem_calls_of_operand ha)
    obtain ⟨x, rfl⟩ | ⟨g, a, rfl⟩ | ⟨g, reason, a, b, rfl⟩ | operator := e.operator_or
    · simp only [substitute] at called
      split at called
      · exact .inr called
      · exact .inl called
    · simp only [substitute, calls_call, List.mem_cons] at called
      rcases called with rfl | called
      · exact .inl (by simp [calls_call])
      · exact below a (by simp [operands]) called
    · rw [calls_eq] at called
      simp only [substitute, callee?, operands, Option.toList_none, List.nil_append,
        List.mem_flatMap, List.mem_cons, List.not_mem_nil, or_false, exists_eq_or_imp,
        exists_eq_left] at called
      rcases called with called | called
      · exact below a (by simp [operands]) called
      · exact below b (by simp [operands]) called
    · rw [substitute_of_operator operator, calls_eq,
        callee?_of_operator (by rwa [isOperator_mapOperands])] at called
      obtain ⟨a', inside, called⟩ := List.mem_flatMap.1 (by simpa using called)
      obtain ⟨a, ha, rfl⟩ := mem_operands_mapOperands.1 inside
      exact below a ha called

/-- Writing out calls adds none. -/
theorem mem_calls_inlineCalls {trivial : List (String × Predicate.TrivialBody)} {f : String}
    (areTrivial : Predicate.AreTrivial trivial) (e : Expr) :
    f ∈ (e.inlineCalls trivial).calls → f ∈ e.calls := by
  induction e using operandInduction with
  | step e ih =>
    intro called
    have below (a : Expr) (ha : a ∈ e.operands) (h : f ∈ (a.inlineCalls trivial).calls) :
        f ∈ e.calls :=
      mem_calls_of_operand ha (ih a ha h)
    obtain ⟨x, rfl⟩ | ⟨g, a, rfl⟩ | ⟨g, reason, a, b, rfl⟩ | operator := e.operator_or
    · simpa only [inlineCalls] using called
    · rw [calls_call, List.mem_cons]
      simp only [inlineCalls] at called
      cases known : trivial.lookup g with
      | none =>
        simp only [known, calls_call, List.mem_cons] at called
        exact called.imp_right (ih a (by simp [operands]))
      | some callee =>
        rw [known, calls_eq] at called
        simp only [callee?, operands, Option.toList_none, List.nil_append, List.mem_flatMap,
          List.mem_cons, List.not_mem_nil, or_false, exists_eq_or_imp, exists_eq_left] at called
        have noCalls : callee.expr.calls = [] := (areTrivial g callee known).1
        rcases called with called | called
        · exact .inr called
        · rcases mem_calls_substitute callee.expr called with inBody | inArgument
          · simp [noCalls] at inBody
          · exact .inr inArgument
    · rw [calls_eq] at called
      simp only [inlineCalls, callee?, operands, Option.toList_none, List.nil_append,
        List.mem_flatMap, List.mem_cons, List.not_mem_nil, or_false, exists_eq_or_imp,
        exists_eq_left] at called
      rcases called with called | called
      · exact below a (by simp [operands]) called
      · exact below b (by simp [operands]) called
    · rw [inlineCalls_of_operator operator, calls_eq,
        callee?_of_operator (by rwa [isOperator_mapOperands])] at called
      obtain ⟨a', inside, called⟩ := List.mem_flatMap.1 (by simpa using called)
      obtain ⟨a, ha, rfl⟩ := mem_operands_mapOperands.1 inside
      exact below a ha called

end Expr

namespace Validator

variable {v : Validator}

theorem IsSealed.round (h : v.IsSealed) :
    (v.round (Predicate.trivialBodies v.predicates)).IsSealed where
  distinct := by
    simp only [Validator.round, Predicate.names_round]
    exact h.distinct
  root := by
    simp only [Validator.round, Predicate.names_round]
    exact h.root
  calls q inside f called := by
    simp only [Validator.round, Predicate.names_round]
    obtain ⟨p, listed, rfl⟩ := List.mem_map.1 inside
    obtain ⟨e', written, called⟩ := List.mem_flatMap.1 called
    rw [Predicate.exprs, Predicate.inlineRound, Stmt.exprsOfAll_mapAllExprs] at written
    obtain ⟨e, here, rfl⟩ := List.mem_map.1 written
    have before := e.mem_calls_inlineCalls (Predicate.areTrivial_trivialBodies v.predicates) called
    exact h.calls p listed f (List.mem_flatMap.2 ⟨e, here, before⟩)

theorem IsSealed.inlineRounds (fuel : Nat) : ∀ v : Validator, v.IsSealed →
    { v with predicates := Predicate.inlineRounds fuel v.predicates }.IsSealed := by
  induction fuel with
  | zero => exact fun v h => h
  | succ fuel ih =>
    intro v h
    unfold Predicate.inlineRounds
    dsimp only
    split
    · exact ih (v.round _) h.round
    · exact h

/-- What the root reaches calls only what the root reaches. -/
theorem IsSealed.prune (h : v.IsSealed) :
    { v with predicates := Predicate.prune v.predicates v.root }.IsSealed := by
  have kept (name : String) (there : name ∈ v.predicates.map Predicate.name)
      (reached : name ∈ Predicate.reachable v.predicates v.root) :
      name ∈ (Predicate.prune v.predicates v.root).map Predicate.name := by
    obtain ⟨p, inside, rfl⟩ := List.mem_map.1 there
    exact List.mem_map_of_mem (Predicate.mem_prune.2 ⟨inside, reached⟩)
  exact {
    distinct := h.distinct.sublist (List.filter_sublist.map _)
    root := kept _ h.root (Predicate.mem_reachable_root _ _)
    calls := fun p inside f called => by
      obtain ⟨inside, reached⟩ := Predicate.mem_prune.1 inside
      exact kept f (h.calls p inside f called)
        (Predicate.mem_reachable_of_call h.distinct inside reached called) }

theorem IsSealed.inlined (h : v.IsSealed) : v.inlined.IsSealed :=
  (IsSealed.inlineRounds (Predicate.roundLimit v.predicates) v h).prune

/-! ## Evaluation -/

/-- The halt is not one at a name without a predicate. -/
def IsLimit (halt : Halt) : Prop := halt = .depthExceeded

/-- Evaluation of a sealed validator halts at the limit only. -/
theorem IsSealed.evaluateWithin {σ : Type} (h : v.IsSealed) (observe : Observer σ) (depth : Nat)
    (value : Value) : OnlyFails IsLimit (v.evaluateWithin observe depth value) := by
  have law := isLaw_onlyFails IsLimit observe
  apply law.evaluateWithin
  apply law.invoke v (· ∈ v.predicates.map Predicate.name) _ _ _ depth h.root
  · intro name _ p found f called
    exact h.calls p (predicate?_eq_some found).1 f called
  · exact (OnlyFails.update _).bind fun _ => .throw rfl
  · intro name known absent
    obtain ⟨p, inside, rfl⟩ := List.mem_map.1 known
    rw [predicate?_of_mem h.distinct inside] at absent
    cases absent

end Validator

namespace Arena

variable {arena : Arena} {type : TypeId} {options : CompileOptions} {v : Validator}

/-- A validator that is compiled is sealed: names are not repeated, the root and every call have a
predicate, no name was left without one, and no evaluation comes to a name that has none. -/
theorem isSealed_compile (made : arena.compile type options = .ok v) :
    v.IsSealed ∧
      (∃ registry, Gives ((Context.root arena options).compileRoot type) .empty v.root registry ∧
        ∀ name, registry.isPending name = false) ∧
      ∀ (σ : Type) (observe : Observer σ) (state : σ) (value : Value) (name : String),
        (v.evaluate observe state value).1 ≠ .error (.unknownPredicate name) := by
  obtain ⟨root, registry, outcome, rfl⟩ := compile_eq_ok.1 made
  have compiled := (compileRoot_seals _ type).isSealed outcome options
  have whole : Validator.IsSealed ⟨root, if options.inlineTrivialPredicates then
      Predicate.inlineTrivial registry.predicates root else registry.predicates, options⟩ := by
    split
    · exact compiled.inlined
    · exact compiled
  refine ⟨whole, ⟨registry, outcome, (compileRoot_seals _ type).isPending outcome⟩, ?_⟩
  intro σ observe state value name failed
  have limit := whole.evaluateWithin observe maxCallDepth value state _ _ (Prod.ext failed rfl)
  cases limit

theorem isSealed_compile_textBox :
    ∃ v, textBox.2.compile textBox.1 {} = .ok v ∧ v.IsSealed ∧
      ∀ value name, v.verdict value ≠ .error (.unknownPredicate name) := by
  have compiles : (textBox.2.compile textBox.1 {}).toOption.isSome = true := by decide +kernel
  obtain ⟨v, made⟩ := Option.isSome_iff_exists.1 compiles
  rw [toOption_eq_some] at made
  obtain ⟨whole, -, known⟩ := isSealed_compile made
  exact ⟨v, made, whole, known Unit Observer.silent ()⟩

end Arena

end ShapeCheck
