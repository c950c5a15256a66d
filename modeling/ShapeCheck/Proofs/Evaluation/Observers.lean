import ShapeCheck.Proofs.Evaluation.Refinement

set_option autoImplicit false

/-! # Observers do not decide

An observer is told what happens and keeps a state of its own, but evaluation never reads this state.
So if the states of one observer can be translated to those of another one, event by event, whole
evaluations can: they have the same result, or halt in the same way, and the states at the end are
translated as well. Every observer can be translated to the silent one, and the log of all events to any
other.

Main facts: `Validator.evaluateWithin_translates`, `Validator.evaluate_fst` (the verdict is the result of
every evaluation) and `Validator.evaluate_snd` (an observer ends where the events lead it).
-/

namespace ShapeCheck

section
variable {σ τ α β : Type}

/-- Started on a translated state, the second evaluation has the result of the first one and ends on the
translated state. -/
def Translates (translate : σ → τ) (m : Run σ α) (n : Run τ α) : Prop :=
  ∀ s, n.run.run (translate s) = ((m.run.run s).1, translate (m.run.run s).2)

namespace Translates

variable {translate : σ → τ}

theorem pure (a : α) : Translates translate (Pure.pure a : Run σ α) (Pure.pure a : Run τ α) := fun _ => rfl

theorem throw (halt : Halt) :
    Translates translate (MonadExcept.throw halt : Run σ α) (MonadExcept.throw halt : Run τ α) := fun _ => rfl

theorem bind {m : Run σ α} {n : Run τ α} {f : α → Run σ β} {g : α → Run τ β} (first : Translates translate m n)
    (second : ∀ a, Translates translate (f a) (g a)) : Translates translate (m >>= f) (n >>= g) := by
  intro s
  have left : (m >>= f).run.run s = (ExceptT.bindCont f (m.run.run s).1).run (m.run.run s).2 := rfl
  have right : (n >>= g).run.run (translate s) =
      (ExceptT.bindCont g (n.run.run (translate s)).1).run (n.run.run (translate s)).2 := rfl
  rw [left, right, first s]
  cases (m.run.run s).1 with
  | ok a => exact second a _
  | error halt => rfl

/-- Where the first evaluation has an outcome, the second one has the translated one. -/
theorem gives {m : Run σ α} {n : Run τ α} (h : Translates translate m n) {s t : σ} {a : α}
    (outcome : Gives m s a t) : Gives n (translate s) a (translate t) := by
  show n.run.run (translate s) = _
  rw [h s, show m.run.run s = (.ok a, t) from outcome]

end Translates

variable {translate : σ → τ} {observe : Observer σ} {observe' : Observer τ}
  (translated : ∀ s event, translate (observe s event) = observe' (translate s) event)
include translated

theorem Translates.emit (event : Event) :
    Translates translate (ShapeCheck.emit observe event) (ShapeCheck.emit observe' event) := by
  intro s
  show ((Except.ok (), observe' (translate s) event) : Except Halt Unit × τ) =
    (.ok (), translate (observe s event))
  rw [translated]

theorem Translates.isCongruence :
    IsCongruence observe observe' fun {α : Type} (m : Run σ α) (n : Run τ α) => Translates translate m n where
  pure a := .pure a
  bind first second := first.bind second
  emit event := .emit translated event

/-! ## Validators -/

namespace Validator

theorem invoke_translates (v : Validator) (depth : Nat) (name : String) (argument : Located) :
    Translates translate (v.invoke observe depth name argument) (v.invoke observe' depth name argument) := by
  induction depth generalizing name argument with
  | zero =>
    simp only [invoke]
    exact (Translates.emit translated _).bind fun _ => .throw _
  | succ depth ih =>
    rw [invoke_succ, invoke_succ]
    cases v.predicate? name with
    | none => exact .throw _
    | some p => exact (Translates.isCongruence translated).run (fun f _ x => ih f x) argument

theorem evaluateWithin_translates (v : Validator) (depth : Nat) (value : Value) :
    Translates translate (v.evaluateWithin observe depth value) (v.evaluateWithin observe' depth value) := by
  refine (Translates.emit translated _).bind fun _ => ?_
  refine (v.invoke_translates translated depth v.root _).bind fun passed => ?_
  exact (Translates.emit translated _).bind fun _ => .pure passed

end Validator

end

/-! ## Results and states -/

namespace Validator

variable {σ : Type} (v : Validator) (observe : Observer σ)

/-- Every observer sees the same result of a call. -/
theorem invoke_fst (depth : Nat) (name : String) (argument : Located) (state : σ) :
    ((v.invoke observe depth name argument).run.run state).1 =
      ((v.invoke Observer.silent depth name argument).run.run ()).1 := by
  have silent : Translates (fun _ : σ => ()) (v.invoke observe depth name argument)
      (v.invoke Observer.silent depth name argument) := v.invoke_translates (fun _ _ => rfl) _ _ _
  exact (congrArg Prod.fst (silent state)).symm

/-- What an expression gives in a frame when this many calls may be nested: its value, or why it has none.
-/
def valueOf (depth : Nat) (state : σ) (frame : Frame) (e : Expr) : Except Halt Located :=
  ((e.eval observe (v.invoke observe depth) frame).run.run state).1

/-- Every observer sees the same value of an expression. -/
theorem valueOf_eq_silent (depth : Nat) (state : σ) (frame : Frame) (e : Expr) :
    v.valueOf observe depth state frame e = v.valueOf Observer.silent depth () frame e := by
  have silent : Translates (fun _ : σ => ()) (e.eval observe (v.invoke observe depth) frame)
      (e.eval Observer.silent (v.invoke Observer.silent depth) frame) :=
    (Translates.isCongruence fun _ _ => rfl).eval e
      (fun f _ x => v.invoke_translates (fun _ _ => rfl) depth f x) frame
  exact (congrArg Prod.fst (silent state)).symm

/-- Every observer sees the same result, which is the verdict. -/
theorem evaluate_fst (state : σ) (value : Value) :
    (v.evaluate observe state value).1 = v.verdict value := by
  have silent : Translates (fun _ : σ => ()) (v.evaluateWithin observe maxCallDepth value)
      (v.evaluateWithin Observer.silent maxCallDepth value) :=
    v.evaluateWithin_translates (fun _ _ => rfl) _ _
  exact (congrArg Prod.fst (silent state)).symm

/-- What happens when the validator is evaluated on a value. -/
def events (value : Value) : List Event := (v.evaluate Observer.log [] value).2

/-- An observer ends where the events lead it. -/
theorem evaluate_snd (state : σ) (value : Value) :
    (v.evaluate observe state value).2 = (v.events value).foldl observe state := by
  have logged : Translates (fun events => events.foldl observe state)
      (v.evaluateWithin Observer.log maxCallDepth value) (v.evaluateWithin observe maxCallDepth value) :=
    v.evaluateWithin_translates (fun _ _ => List.foldl_append) _ _
  exact congrArg Prod.snd (logged [])

end Validator

end ShapeCheck
