import ShapeCheck.Proofs.Evaluation.Refinement
import ShapeCheck.Proofs.Failing

set_option autoImplicit false

/-! # Laws of evaluations

An evaluation is put together from results, sequences, events about the current part, and brackets: a
predicate is entered, something runs, and the predicate is left again. A property that passes through
these four (`IsLaw`) passes from the calls of an expression to the expression, from there to
statements and predicates, and by induction on the calls that may be nested to a whole validator.

Main facts: `IsLaw.eval`, `IsLaw.run` and `IsLaw.invoke`.
-/

namespace ShapeCheck

/-- A property of evaluations that a whole has as soon as its parts have it. -/
structure IsLaw {σ : Type} (observe : Observer σ) (P : {α : Type} → Run σ α → Prop) : Prop where
  pure : ∀ {α : Type} (a : α), P (Pure.pure a : Run σ α)
  bind : ∀ {α β : Type} {m : Run σ α} {f : α → Run σ β}, P m → (∀ a, P (f a)) → P (m >>= f)
  reason : ∀ reason, P (emit observe (.reason reason))
  superfluousKey : ∀ key, P (emit observe (.superfluousKey key))
  bracket : ∀ {m : Run σ Bool} (segment : Option Segment) (name : String), P m →
    P (do
      emit observe (.enter segment)
      let passed ← m
      emit observe (.exit passed name)
      return passed)

namespace IsLaw

variable {σ : Type} {observe : Observer σ} {P : {α : Type} → Run σ α → Prop}
  {call : String → Located → Run σ Bool}

theorem explain (law : IsLaw observe P) (reason : Option Reason) (passed : Bool) :
    P (ShapeCheck.explain observe reason passed) := by
  cases reason with
  | none => exact law.pure ()
  | some reason =>
    cases passed with
    | true => exact law.pure ()
    | false => exact law.reason reason

/-! ## Expressions -/

theorem evalAnd (law : IsLaw observe P) {frame : Frame} {es : List Expr}
    (h : ∀ e ∈ es, P (e.eval observe call frame)) : P (Expr.evalAnd observe call frame es) := by
  induction es with
  | nil => exact law.pure true
  | cons e rest ih =>
    simp only [Expr.evalAnd]
    apply law.bind (h e (by simp))
    intro v
    split
    · exact ih fun a ha => h a (by simp [ha])
    · exact law.pure false

theorem evalOr (law : IsLaw observe P) {frame : Frame} {es : List Expr}
    (h : ∀ e ∈ es, P (e.eval observe call frame)) : P (Expr.evalOr observe call frame es) := by
  induction es with
  | nil => exact law.pure false
  | cons e rest ih =>
    simp only [Expr.evalOr]
    apply law.bind (h e (by simp))
    intro v
    split
    · exact law.pure true
    · exact ih fun a ha => h a (by simp [ha])

/-- A law that holds of the calls of an expression holds of the expression. -/
theorem eval (law : IsLaw observe P) (e : Expr) :
    (∀ f ∈ e.calls, ∀ x, P (call f x)) → ∀ frame, P (e.eval observe call frame) := by
  induction e using Expr.operandInduction with
  | step e ih =>
    intro called frame
    have parts (a : Expr) (ha : a ∈ e.operands) (frame : Frame) : P (a.eval observe call frame) :=
      ih a ha (fun f hf => called f (Expr.mem_calls_of_operand ha hf)) frame
    cases e with
    | var | undefined | null | bool | number | string =>
      simp only [Expr.eval]
      exact law.pure _
    | and es =>
      simp only [Expr.eval]
      exact law.bind (law.evalAnd fun a ha => parts a ha frame) fun _ => law.pure _
    | or es =>
      simp only [Expr.eval]
      exact law.bind (law.evalOr fun a ha => parts a ha frame) fun _ => law.pure _
    | typeOf | not | member | length | constructorName | isArray | isBuffer | isView =>
      simp only [Expr.eval]
      exact law.bind (parts _ (by simp [Expr.operands]) frame) fun _ => law.pure _
    | strictEq | strictNe | compare | index | hasKey =>
      simp only [Expr.eval]
      exact law.bind (parts _ (by simp [Expr.operands]) frame) fun _ =>
        law.bind (parts _ (by simp [Expr.operands]) frame) fun _ => law.pure _
    | oneOf e options =>
      have tell (found : Bool) (key : String) : P (do
          if !found then emit observe (.superfluousKey key)
          return Located.ofBool found) := by
        cases found
        · exact law.bind (law.superfluousKey key) fun _ => law.pure _
        · exact law.pure _
      simp only [Expr.eval]
      exact law.bind (parts _ (by simp [Expr.operands]) frame) fun v => tell _ _
    | call f a =>
      have around (v : Located) :=
        law.bracket (frame.segment? a) f (called f (by simp [Expr.calls_call]) v)
      have whole := law.bind (parts a (by simp [Expr.operands]) frame) fun v =>
        law.bind (around v) fun passed => law.pure (Located.ofBool passed)
      simp only [bind_assoc, pure_bind] at whole
      simpa only [Expr.eval] using whole
    | inlined f reason a b =>
      -- the verdict of the body is told apart from its value to have the shape of a bracket
      have inside : P (do
          let v ← b.eval observe call (frame.checking a)
          ShapeCheck.explain observe reason v.value.isTruthy
          return v.value.isTruthy) :=
        law.bind (parts b (by simp [Expr.operands]) _) fun v =>
          law.bind (law.explain reason _) fun _ => law.pure _
      have whole := law.bind (law.bracket (frame.segment? a) f inside) fun passed =>
        law.pure (Located.ofBool passed)
      simp only [bind_assoc, pure_bind] at whole
      rwa [Expr.eval_inlined]

/-! ## Statements -/

theorem firstResult (law : IsLaw observe P) {α : Type} {run : α → Run σ (Option Bool)}
    (h : ∀ a, P (run a)) (items : List α) : P (firstResult run items) := by
  induction items with
  | nil => exact law.pure none
  | cons a rest ih =>
    simp only [ShapeCheck.firstResult]
    apply law.bind (h a)
    intro result
    cases result with
    | none => exact ih
    | some passed => exact law.pure _

mutual

theorem exec (law : IsLaw observe P) (stmt : Stmt)
    (called : ∀ e ∈ stmt.exprs, ∀ f ∈ e.calls, ∀ x, P (call f x)) (frame : Frame) :
    P (Stmt.exec observe call frame stmt) := by
  cases stmt with
  | result e =>
    simp only [Stmt.exec]
    exact law.bind (law.eval e (called e (by simp [Stmt.exprs])) frame) fun _ => law.pure _
  | ifThen e body =>
    simp only [Stmt.exec]
    apply law.bind (law.eval e (called e (by simp [Stmt.exprs])) frame)
    intro v
    split
    · exact law.execAll body (fun a ha => called a (by simp [Stmt.exprs, ha])) frame
    · exact law.pure none
  | forIndex x e body =>
    simp only [Stmt.exec]
    apply law.bind (law.eval e (called e (by simp [Stmt.exprs])) frame)
    intro v
    exact law.firstResult (fun i => law.execAll body
      (fun a ha => called a (by simp [Stmt.exprs, ha])) _) _
  | forKeys x e body =>
    simp only [Stmt.exec]
    apply law.bind (law.eval e (called e (by simp [Stmt.exprs])) frame)
    intro v
    exact law.firstResult (fun key => law.execAll body
      (fun a ha => called a (by simp [Stmt.exprs, ha])) _) _

theorem execAll (law : IsLaw observe P) (stmts : List Stmt)
    (called : ∀ e ∈ Stmt.exprsOfAll stmts, ∀ f ∈ e.calls, ∀ x, P (call f x)) (frame : Frame) :
    P (Stmt.execAll observe call frame stmts) := by
  cases stmts with
  | nil => exact law.pure none
  | cons stmt rest =>
    simp only [Stmt.execAll]
    apply law.bind (law.exec stmt (fun a ha => called a (by simp [Stmt.exprsOfAll, ha])) frame)
    intro result
    cases result with
    | none => exact law.execAll rest (fun a ha => called a (by simp [Stmt.exprsOfAll, ha])) frame
    | some passed => exact law.pure _

end

/-! ## Predicates and validators -/

/-- A law that holds of the calls of a predicate holds of the predicate. -/
theorem run (law : IsLaw observe P) {p : Predicate} (called : ∀ f ∈ p.calls, ∀ x, P (call f x))
    (argument : Located) : P (p.run observe call argument) := by
  have inside (e : Expr) (listed : e ∈ p.exprs) (f : String) (hf : f ∈ e.calls) : ∀ x, P (call f x) :=
    called f (List.mem_flatMap.2 ⟨e, listed, hf⟩)
  rw [Predicate.run_eq]
  apply law.bind (law.execAll p.body inside _)
  intro result
  exact law.bind (law.explain p.reason _) fun _ => law.pure _

/-- A law holds of a validator if it holds where evaluation halts: at the limit, and at the names
without a predicate that calls can lead to. -/
theorem invoke (law : IsLaw observe P) (v : Validator) (known : String → Prop)
    (closed : ∀ name, known name → ∀ p, v.predicate? name = some p → ∀ f ∈ p.calls, known f)
    (limit : P (do emit observe .depthExceeded; throw .depthExceeded : Run σ Bool))
    (unknown : ∀ name, known name → v.predicate? name = none →
      P (throw (.unknownPredicate name) : Run σ Bool))
    (depth : Nat) {name : String} (reached : known name) (argument : Located) :
    P (v.invoke observe depth name argument) := by
  induction depth generalizing name argument with
  | zero => exact limit
  | succ depth ih =>
    rw [Validator.invoke_succ]
    cases found : v.predicate? name with
    | none => exact unknown name reached found
    | some p =>
      exact law.run (fun f hf x => ih (closed name reached p found f hf) x) argument

/-- The root is called inside of a bracket. -/
theorem evaluateWithin (law : IsLaw observe P) {v : Validator} {depth : Nat} {value : Value}
    (h : P (v.invoke observe depth v.root (.whole value))) :
    P (v.evaluateWithin observe depth value) :=
  law.bracket none v.root h

end IsLaw

/-- To halt in certain ways only is a law. -/
theorem isLaw_onlyFails {σ : Type} (E : Halt → Prop) (observe : Observer σ) :
    IsLaw observe fun {α : Type} (m : Run σ α) => OnlyFails E m where
  pure a := .pure a
  bind first second := first.bind second
  reason _ := .update _
  superfluousKey _ := .update _
  bracket _ _ inside := (OnlyFails.update _).bind fun _ => inside.bind fun _ =>
    (OnlyFails.update _).bind fun _ => .pure _

end ShapeCheck
