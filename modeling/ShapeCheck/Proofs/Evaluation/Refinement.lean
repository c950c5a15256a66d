import ShapeCheck.Proofs.Evaluation.Congruences

set_option autoImplicit false

/-! # Refinement of evaluations

When is an evaluation at least as defined as another one, with the same verdict and the same events?
For an operator, a statement and a predicate it is enough that this holds of the parts; for a call it
is enough that it holds of the callee.

Main facts: `Expr.eval_refines` (calls that refine others make evaluations that do),
`Predicate.run_mapExprs_refines` (changes of all expressions of a predicate), and `Validator.invoke_mono`
(a decided call stays decided when more calls may be nested).
-/

namespace ShapeCheck

section
variable {σ : Type} {observe : Observer σ} {call call' : String → Located → Run σ Bool}

theorem Refines.isCongruence (observe : Observer σ) :
    IsCongruence observe observe fun {α : Type} (m n : Run σ α) => Refines m n where
  pure _ := .refl _
  bind first second := first.bind second
  emit _ := .refl _

/-! ## Expressions -/

namespace Expr

/-- An operator is refined through its operands. -/
theorem eval_mapOperands_refines {change : Expr → Expr} {frame frame' : Frame} {e : Expr}
    (operator : e.isOperator = true)
    (h : ∀ a ∈ e.operands,
      Refines (a.eval observe call frame) ((change a).eval observe call' frame')) :
    Refines (e.eval observe call frame) ((e.mapOperands change).eval observe call' frame') :=
  (Refines.isCongruence observe).eval_mapOperands operator h

/-- Calls that refine others make an evaluation that does. -/
theorem eval_refines (e : Expr) (h : ∀ f ∈ e.calls, ∀ x, Refines (call f x) (call' f x)) (frame : Frame) :
    Refines (e.eval observe call frame) (e.eval observe call' frame) :=
  (Refines.isCongruence observe).eval e h frame

theorem evalAnd_map {change : Expr → Expr} {frame frame' : Frame} {es : List Expr}
    (h : ∀ e ∈ es, (change e).eval observe call' frame' = e.eval observe call frame) :
    evalAnd observe call' frame' (es.map change) = evalAnd observe call frame es := by
  induction es with
  | nil => rfl
  | cons e rest ih =>
    simp only [evalAnd, List.map_cons]
    rw [h e (by simp), ih fun a ha => h a (by simp [ha])]

theorem evalOr_map {change : Expr → Expr} {frame frame' : Frame} {es : List Expr}
    (h : ∀ e ∈ es, (change e).eval observe call' frame' = e.eval observe call frame) :
    evalOr observe call' frame' (es.map change) = evalOr observe call frame es := by
  induction es with
  | nil => rfl
  | cons e rest ih =>
    simp only [evalOr, List.map_cons]
    rw [h e (by simp), ih fun a ha => h a (by simp [ha])]

/-- An operator does the same if its operands do. -/
theorem eval_mapOperands {change : Expr → Expr} {frame frame' : Frame} {e : Expr}
    (operator : e.isOperator = true)
    (h : ∀ a ∈ e.operands, (change a).eval observe call' frame' = a.eval observe call frame) :
    (e.mapOperands change).eval observe call' frame' = e.eval observe call frame := by
  cases e with
  | var | call | inlined => simp [isOperator] at operator
  | undefined | null | bool | number | string => simp only [mapOperands, eval]
  | and es =>
    simp only [operands] at h
    simp only [mapOperands, eval]
    rw [evalAnd_map h]
  | or es =>
    simp only [operands] at h
    simp only [mapOperands, eval]
    rw [evalOr_map h]
  | typeOf | not | member | length | constructorName | isArray | isBuffer | isView | oneOf =>
    simp only [mapOperands, eval, h _ (List.mem_singleton_self _)]
  | strictEq a b | strictNe a b | compare _ a b | index a b | hasKey a b =>
    simp only [mapOperands, eval, h a (by simp [operands]), h b (by simp [operands])]

/-- Without calls it does not matter what calls do. -/
theorem eval_of_calls_eq_nil (e : Expr) : e.calls = [] → ∀ frame : Frame,
    e.eval observe call' frame = e.eval observe call frame := by
  induction e using operandInduction with
  | step e ih =>
    intro noCalls frame
    have below := ((calls_eq_nil_iff e).1 noCalls).2
    have parts (a : Expr) (ha : a ∈ e.operands) (frame : Frame) := ih a ha (below a ha) frame
    obtain ⟨x, rfl⟩ | ⟨f, a, rfl⟩ | ⟨f, reason, a, b, rfl⟩ | operator := e.operator_or
    · simp only [eval]
    · simp [calls_call] at noCalls
    · rw [eval_inlined, eval_inlined, parts b (by simp [operands])]
    · have same := eval_mapOperands operator (fun a ha =>
        show (id a).eval observe call' frame = a.eval observe call frame from parts a ha frame)
      rwa [mapOperands_id] at same

end Expr

/-! ## Predicates -/

namespace Predicate

/-- If a change of every expression refines another one, so does the change of a predicate. -/
theorem run_mapExprs_refines {change change' : Expr → Expr} {p : Predicate}
    (h : ∀ e ∈ p.exprs, ∀ frame : Frame, frame.IsOpen p.parameter →
      Refines ((change e).eval observe call frame) ((change' e).eval observe call' frame))
    (argument : Located) :
    Refines ((p.mapExprs change).run observe call argument)
      ((p.mapExprs change').run observe call' argument) :=
  (Refines.isCongruence observe).run_mapExprs h argument

/-- A change that refines every expression refines the predicate. -/
theorem run_refines {change : Expr → Expr} {p : Predicate}
    (h : ∀ e ∈ p.exprs, ∀ frame : Frame, frame.IsOpen p.parameter →
      Refines (e.eval observe call frame) ((change e).eval observe call' frame))
    (argument : Located) :
    Refines (p.run observe call argument) ((p.mapExprs change).run observe call' argument) := by
  have changed : Refines ((p.mapExprs id).run observe call argument)
      ((p.mapExprs change).run observe call' argument) := run_mapExprs_refines h argument
  rwa [mapExprs_id] at changed

/-- Calls that refine others make a predicate that does. -/
theorem run_refines_of_calls {p : Predicate}
    (h : ∀ f ∈ p.calls, ∀ x, Refines (call f x) (call' f x)) (argument : Located) :
    Refines (p.run observe call argument) (p.run observe call' argument) :=
  (Refines.isCongruence observe).run h argument

end Predicate

/-! ## Validators -/

namespace Validator

theorem invoke_succ (v : Validator) (depth : Nat) (name : String) (argument : Located) :
    v.invoke observe (depth + 1) name argument =
      match v.predicate? name with
      | none => throw (.unknownPredicate name)
      | some p => p.run observe (v.invoke observe depth) argument := rfl

theorem not_gives_invoke_zero (v : Validator) {name : String} {argument : Located} {s t : σ}
    {b : Bool} : ¬ Gives (v.invoke observe 0 name argument) s b t := by
  intro h
  simp only [invoke] at h
  obtain ⟨_, _, _, h⟩ := gives_bind.1 h
  exact gives_throw h

/-- With no level left nothing is decided, so everything refines the call. -/
theorem invoke_zero_refines (v : Validator) (name : String) (argument : Located)
    (m : Run σ Bool) : Refines (v.invoke observe 0 name argument) m :=
  fun _ _ _ h => absurd h (v.not_gives_invoke_zero)

theorem invoke_refines_succ (v : Validator) (depth : Nat) (name : String) (argument : Located) :
    Refines (v.invoke observe depth name argument)
      (v.invoke observe (depth + 1) name argument) := by
  induction depth generalizing name argument with
  | zero => exact v.invoke_zero_refines name argument _
  | succ depth ih =>
    rw [invoke_succ, invoke_succ]
    cases v.predicate? name with
    | none => exact .refl _
    | some p => exact Predicate.run_refines_of_calls (fun f _ x => ih f x) argument

/-- A decided call stays decided when more calls may be nested. -/
theorem invoke_mono (v : Validator) {depth depth' : Nat} (h : depth ≤ depth') (name : String)
    (argument : Located) :
    Refines (v.invoke observe depth name argument) (v.invoke observe depth' name argument) := by
  induction h with
  | refl => exact .refl _
  | step _ ih => exact ih.trans (v.invoke_refines_succ _ name argument)

/-- Calls depend on nothing but the predicates. -/
theorem invoke_congr {v w : Validator} (same : v.predicates = w.predicates) (depth : Nat) :
    v.invoke observe depth = w.invoke observe depth := by
  have found : v.predicate? = w.predicate? := by
    funext name
    simp only [predicate?, same]
  induction depth with
  | zero => rfl
  | succ depth ih =>
    funext name argument
    rw [invoke_succ, invoke_succ, found, ih]

theorem evaluateWithin_congr {v w : Validator} (sameRoot : v.root = w.root)
    (same : v.predicates = w.predicates) (depth : Nat) (value : Value) :
    v.evaluateWithin observe depth value = w.evaluateWithin observe depth value := by
  simp only [evaluateWithin, sameRoot, invoke_congr same]

/-- The root decides for the whole validator. -/
theorem gives_evaluateWithin {v : Validator} {depth : Nat} {value : Value} {s t : σ} {b : Bool} :
    Gives (v.evaluateWithin observe depth value) s b t ↔
      ∃ u, Gives (v.invoke observe depth v.root (.whole value)) (observe s (.enter none)) b u ∧
        observe u (.exit b v.root) = t := by
  simp only [evaluateWithin, gives_bind, emit, gives_modify, gives_pure]
  constructor
  · rintro ⟨_, _, rfl, passed, u, h, _, _, rfl, rfl, rfl⟩
    exact ⟨u, h, rfl⟩
  · rintro ⟨u, h, rfl⟩
    exact ⟨(), _, rfl, b, u, h, (), _, rfl, rfl, rfl⟩

theorem evaluateWithin_refines {v w : Validator} {depth : Nat} {value : Value}
    (sameRoot : v.root = w.root)
    (h : Refines (v.invoke observe depth v.root (.whole value))
      (w.invoke observe depth w.root (.whole value))) :
    Refines (v.evaluateWithin observe depth value) (w.evaluateWithin observe depth value) := by
  intro s b t outcome
  obtain ⟨u, decided, rfl⟩ := gives_evaluateWithin.1 outcome
  exact gives_evaluateWithin.2 ⟨u, h _ _ _ decided, by rw [sameRoot]⟩

end Validator

end

end ShapeCheck
