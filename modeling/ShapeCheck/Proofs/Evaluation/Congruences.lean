import ShapeCheck.Proofs.Operands
import ShapeCheck.Proofs.Outcome

set_option autoImplicit false

/-! # Comparing evaluations

Two evaluations of the same program may have different observers, and calls that do different things. A
relation between them that results and events are in, and that passes through sequences (`IsCongruence`),
passes from the calls of an expression to the expression, also where the operands of one of the two have
been changed, and from there to statements and predicates.

Main facts: `IsCongruence.eval`, `IsCongruence.run_mapExprs` and `IsCongruence.run`.
-/

namespace ShapeCheck

/-! ## Reasons -/

section
variable {σ : Type} {observe : Observer σ} {call : String → Located → Run σ Bool}

/-- Tells the observer the reason of a leaf that has rejected. -/
def explain (observe : Observer σ) (reason : Option Reason) (passed : Bool) : Run σ Unit :=
  match reason, passed with
  | some reason, false => emit observe (.reason reason)
  | _, _ => pure ()

theorem Expr.eval_inlined (frame : Frame) (f : String) (reason : Option Reason) (e body : Expr) :
    (Expr.inlined f reason e body).eval observe call frame = (do
      emit observe (.enter (frame.segment? e))
      let v ← body.eval observe call (frame.checking e)
      explain observe reason v.value.isTruthy
      emit observe (.exit v.value.isTruthy f)
      return .ofBool v.value.isTruthy) := by
  simp only [Expr.eval]
  congr 1
  funext _
  congr 1
  funext v
  cases v.value.isTruthy <;> cases reason <;> simp [explain]

theorem Predicate.run_eq (p : Predicate) (argument : Located) :
    p.run observe call argument = (do
      let result ← Stmt.execAll observe call (Frame.start p argument) p.body
      explain observe p.reason (result.getD false)
      return result.getD false) := by
  simp only [Predicate.run]
  congr 1
  funext result
  cases result.getD false <;> cases p.reason <;> simp [explain]

end

/-! ## Frames of statements -/

/-- The frames in which the statements of a predicate run: nothing is inlined around them, and the
parameter is that of the predicate. -/
def Frame.IsOpen (frame : Frame) (parameter : String) : Prop :=
  frame.subject = none ∧ frame.parameter = parameter

theorem Frame.isOpen_start (p : Predicate) (argument : Located) :
    (Frame.start p argument).IsOpen p.parameter := ⟨rfl, rfl⟩

theorem Frame.IsOpen.bind {frame : Frame} {parameter : String} (h : frame.IsOpen parameter)
    (name : String) (value : Located) : (frame.bind name value).IsOpen parameter := h

/-! ## Changed predicates -/

mutual

theorem Stmt.mapExprs_id (stmt : Stmt) : Stmt.mapExprs id stmt = stmt := by
  cases stmt with
  | result => rfl
  | ifThen e body | forIndex x e body | forKeys x e body =>
    simp [Stmt.mapExprs, Stmt.mapAllExprs_id body]

theorem Stmt.mapAllExprs_id (stmts : List Stmt) : Stmt.mapAllExprs id stmts = stmts := by
  cases stmts with
  | nil => rfl
  | cons stmt rest => simp [Stmt.mapAllExprs, Stmt.mapExprs_id stmt, Stmt.mapAllExprs_id rest]

end

namespace Predicate

/-- A predicate with all expressions of its body changed. -/
def mapExprs (change : Expr → Expr) (p : Predicate) : Predicate :=
  { p with body := Stmt.mapAllExprs change p.body }

theorem mapExprs_id (p : Predicate) : p.mapExprs id = p := by
  rw [mapExprs, Stmt.mapAllExprs_id]

end Predicate

/-! ## Congruences -/

/-- Results and events are related to themselves, and sequences whose parts are related are related. -/
structure IsCongruence {σ τ : Type} (observe : Observer σ) (observe' : Observer τ)
    (R : {α : Type} → Run σ α → Run τ α → Prop) : Prop where
  pure : ∀ {α : Type} (a : α), R (Pure.pure a : Run σ α) (Pure.pure a : Run τ α)
  bind : ∀ {α β : Type} {m : Run σ α} {n : Run τ α} {f : α → Run σ β} {g : α → Run τ β},
    R m n → (∀ a, R (f a) (g a)) → R (m >>= f) (n >>= g)
  emit : ∀ event, R (ShapeCheck.emit observe event) (ShapeCheck.emit observe' event)

namespace IsCongruence

variable {σ τ : Type} {observe : Observer σ} {observe' : Observer τ}
  {R : {α : Type} → Run σ α → Run τ α → Prop}
  {call : String → Located → Run σ Bool} {call' : String → Located → Run τ Bool}
  {change change' : Expr → Expr} {frame frame' : Frame}

theorem explain (congr : IsCongruence observe observe' R) (reason : Option Reason) (passed : Bool) :
    R (ShapeCheck.explain observe reason passed) (ShapeCheck.explain observe' reason passed) := by
  cases reason with
  | none => exact congr.pure ()
  | some reason =>
    cases passed with
    | true => exact congr.pure ()
    | false => exact congr.emit _

/-! ### Expressions -/

theorem evalAnd (congr : IsCongruence observe observe' R) {es : List Expr}
    (h : ∀ e ∈ es, R (e.eval observe call frame) ((change e).eval observe' call' frame')) :
    R (Expr.evalAnd observe call frame es) (Expr.evalAnd observe' call' frame' (es.map change)) := by
  induction es with
  | nil => exact congr.pure true
  | cons e rest ih =>
    simp only [Expr.evalAnd, List.map_cons]
    refine congr.bind (h e (by simp)) fun v => ?_
    split
    · exact ih fun a ha => h a (by simp [ha])
    · exact congr.pure false

theorem evalOr (congr : IsCongruence observe observe' R) {es : List Expr}
    (h : ∀ e ∈ es, R (e.eval observe call frame) ((change e).eval observe' call' frame')) :
    R (Expr.evalOr observe call frame es) (Expr.evalOr observe' call' frame' (es.map change)) := by
  induction es with
  | nil => exact congr.pure false
  | cons e rest ih =>
    simp only [Expr.evalOr, List.map_cons]
    refine congr.bind (h e (by simp)) fun v => ?_
    split
    · exact congr.pure true
    · exact ih fun a ha => h a (by simp [ha])

/-- An operator is related to the one with changed operands if the operands are. -/
theorem eval_mapOperands (congr : IsCongruence observe observe' R) {e : Expr}
    (operator : e.isOperator = true)
    (h : ∀ a ∈ e.operands, R (a.eval observe call frame) ((change a).eval observe' call' frame')) :
    R (e.eval observe call frame) ((e.mapOperands change).eval observe' call' frame') := by
  cases e with
  | var | call | inlined => simp [Expr.isOperator] at operator
  | undefined | null | bool | number | string =>
    simp only [Expr.mapOperands, Expr.eval]
    exact congr.pure _
  | and es =>
    simp only [Expr.mapOperands, Expr.eval]
    exact congr.bind (congr.evalAnd h) fun _ => congr.pure _
  | or es =>
    simp only [Expr.mapOperands, Expr.eval]
    exact congr.bind (congr.evalOr h) fun _ => congr.pure _
  | typeOf | not | member | length | constructorName | isArray | isBuffer | isView =>
    simp only [Expr.mapOperands, Expr.eval]
    exact congr.bind (h _ (by simp [Expr.operands])) fun _ => congr.pure _
  | strictEq | strictNe | compare | index | hasKey =>
    simp only [Expr.mapOperands, Expr.eval]
    exact congr.bind (h _ (by simp [Expr.operands])) fun _ =>
      congr.bind (h _ (by simp [Expr.operands])) fun _ => congr.pure _
  | oneOf e options =>
    have tell (found : Bool) (key : String) :
        R (do if !found then ShapeCheck.emit observe (.superfluousKey key)
              return Located.ofBool found)
          (do if !found then ShapeCheck.emit observe' (.superfluousKey key)
              return Located.ofBool found) := by
      cases found with
      | true => exact congr.pure _
      | false => exact congr.bind (congr.emit _) fun _ => congr.pure _
    simp only [Expr.mapOperands, Expr.eval]
    exact congr.bind (h _ (by simp [Expr.operands])) fun v => tell _ _

/-- Related calls make related expressions. -/
theorem eval (congr : IsCongruence observe observe' R) (e : Expr) :
    (∀ f ∈ e.calls, ∀ x, R (call f x) (call' f x)) →
      ∀ frame, R (e.eval observe call frame) (e.eval observe' call' frame) := by
  induction e using Expr.operandInduction with
  | step e ih =>
    intro called frame
    have parts (a : Expr) (ha : a ∈ e.operands) (frame : Frame) :
        R (a.eval observe call frame) (a.eval observe' call' frame) :=
      ih a ha (fun f hf => called f (Expr.mem_calls_of_operand ha hf)) frame
    obtain ⟨x, rfl⟩ | ⟨f, a, rfl⟩ | ⟨f, reason, a, b, rfl⟩ | operator := e.operator_or
    · simp only [Expr.eval]
      exact congr.pure _
    · simp only [Expr.eval]
      refine congr.bind (parts a (by simp [Expr.operands]) frame) fun v => ?_
      refine congr.bind (congr.emit _) fun _ => ?_
      refine congr.bind (called f (by simp [Expr.calls_call]) v) fun passed => ?_
      exact congr.bind (congr.emit _) fun _ => congr.pure _
    · rw [Expr.eval_inlined, Expr.eval_inlined]
      refine congr.bind (congr.emit _) fun _ => ?_
      refine congr.bind (parts b (by simp [Expr.operands]) (frame.checking a)) fun v => ?_
      refine congr.bind (congr.explain reason v.value.isTruthy) fun _ => ?_
      exact congr.bind (congr.emit _) fun _ => congr.pure _
    · have changed := congr.eval_mapOperands operator
        (fun a ha => show R _ ((id a).eval observe' call' frame) from parts a ha frame)
      rwa [Expr.mapOperands_id] at changed

/-! ### Statements -/

theorem firstResult (congr : IsCongruence observe observe' R) {α : Type}
    {run : α → Run σ (Option Bool)} {run' : α → Run τ (Option Bool)} (h : ∀ a, R (run a) (run' a))
    (items : List α) : R (firstResult run items) (firstResult run' items) := by
  induction items with
  | nil => exact congr.pure none
  | cons a rest ih =>
    simp only [ShapeCheck.firstResult]
    refine congr.bind (h a) fun result => ?_
    cases result with
    | none => exact ih
    | some passed => exact congr.pure _

variable {parameter : String}

mutual

theorem exec (congr : IsCongruence observe observe' R) (stmt : Stmt)
    (h : ∀ e ∈ stmt.exprs, ∀ frame : Frame, frame.IsOpen parameter →
      R ((change e).eval observe call frame) ((change' e).eval observe' call' frame))
    (frame : Frame) (isOpen : frame.IsOpen parameter) :
    R (Stmt.exec observe call frame (Stmt.mapExprs change stmt))
      (Stmt.exec observe' call' frame (Stmt.mapExprs change' stmt)) := by
  cases stmt with
  | result e =>
    simp only [Stmt.exec, Stmt.mapExprs]
    exact congr.bind (h e (by simp [Stmt.exprs]) frame isOpen) fun _ => congr.pure _
  | ifThen e body =>
    simp only [Stmt.exec, Stmt.mapExprs]
    refine congr.bind (h e (by simp [Stmt.exprs]) frame isOpen) fun v => ?_
    split
    · exact congr.execAll body (fun a ha => h a (by simp [Stmt.exprs, ha])) frame isOpen
    · exact congr.pure none
  | forIndex x e body =>
    simp only [Stmt.exec, Stmt.mapExprs]
    refine congr.bind (h e (by simp [Stmt.exprs]) frame isOpen) fun v => ?_
    exact congr.firstResult (fun i => congr.execAll body
      (fun a ha => h a (by simp [Stmt.exprs, ha])) _ (isOpen.bind _ _)) _
  | forKeys x e body =>
    simp only [Stmt.exec, Stmt.mapExprs]
    refine congr.bind (h e (by simp [Stmt.exprs]) frame isOpen) fun v => ?_
    exact congr.firstResult (fun key => congr.execAll body
      (fun a ha => h a (by simp [Stmt.exprs, ha])) _ (isOpen.bind _ _)) _

/-- If the expressions of statements are related under two changes, so are the changed statements. -/
theorem execAll (congr : IsCongruence observe observe' R) (stmts : List Stmt)
    (h : ∀ e ∈ Stmt.exprsOfAll stmts, ∀ frame : Frame, frame.IsOpen parameter →
      R ((change e).eval observe call frame) ((change' e).eval observe' call' frame))
    (frame : Frame) (isOpen : frame.IsOpen parameter) :
    R (Stmt.execAll observe call frame (Stmt.mapAllExprs change stmts))
      (Stmt.execAll observe' call' frame (Stmt.mapAllExprs change' stmts)) := by
  cases stmts with
  | nil => exact congr.pure none
  | cons stmt rest =>
    simp only [Stmt.execAll, Stmt.mapAllExprs]
    refine congr.bind (congr.exec stmt (fun a ha => h a (by simp [Stmt.exprsOfAll, ha])) frame isOpen)
      fun result => ?_
    cases result with
    | some passed => exact congr.pure _
    | none => exact congr.execAll rest (fun a ha => h a (by simp [Stmt.exprsOfAll, ha])) frame isOpen

end

/-! ### Predicates -/

/-- If the expressions of a predicate are related under two changes, so are the changed predicates. -/
theorem run_mapExprs (congr : IsCongruence observe observe' R) {p : Predicate}
    (h : ∀ e ∈ p.exprs, ∀ frame : Frame, frame.IsOpen p.parameter →
      R ((change e).eval observe call frame) ((change' e).eval observe' call' frame))
    (argument : Located) :
    R ((p.mapExprs change).run observe call argument)
      ((p.mapExprs change').run observe' call' argument) := by
  rw [Predicate.run_eq, Predicate.run_eq]
  refine congr.bind (congr.execAll p.body h _ (Frame.isOpen_start p argument)) fun result => ?_
  exact congr.bind (congr.explain p.reason _) fun _ => congr.pure _

/-- Related calls make related predicates. -/
theorem run (congr : IsCongruence observe observe' R) {p : Predicate}
    (h : ∀ f ∈ p.calls, ∀ x, R (call f x) (call' f x)) (argument : Located) :
    R (p.run observe call argument) (p.run observe' call' argument) := by
  have changed : R ((p.mapExprs id).run observe call argument)
      ((p.mapExprs id).run observe' call' argument) :=
    congr.run_mapExprs (fun e inside frame _ =>
      congr.eval e (fun f hf => h f (List.mem_flatMap.2 ⟨e, inside, hf⟩)) frame) argument
  rwa [Predicate.mapExprs_id] at changed

end IsCongruence

end ShapeCheck
