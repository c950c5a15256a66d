import ShapeCheck.Compile.Context
import ShapeCheck.Validation.Evaluation

set_option autoImplicit false

/-! # Outcomes of steps that can fail

Evaluation and compilation are both steps over a state that may end in an error: an evaluation
(`Run`) tells an observer, a compilation (`Build`) fills a registry. `Gives m s a t` says that such
a step ends, from the state `s`, with the result `a` in the state `t`. Errors have no outcome, so
`Refines m n` (every outcome of `m` is one of `n`) is the order in which a step may only become
more defined.

Main facts: `gives_bind` (the outcome of a sequence) and `Refines.bind` (a sequence refines one
whose parts it refines).
-/

namespace ShapeCheck

theorem toOption_eq_some {ε α : Type} {m : Except ε α} {a : α} :
    m.toOption = some a ↔ m = .ok a := by
  cases m <;> simp [Except.toOption]

/-- The error of a step that fails. -/
def errorOf {ε α : Type} : Except ε α → Option ε
  | .error e => some e
  | .ok _ => none

theorem errorOf_eq_some {ε α : Type} {m : Except ε α} {e : ε} : errorOf m = some e ↔ m = .error e := by
  cases m <;> simp [errorOf]

section
variable {ε σ α β : Type}

/-- From the state `s` the step ends in the state `t` with the result `a`. -/
def Gives (m : ExceptT ε (StateM σ) α) (s : σ) (a : α) (t : σ) : Prop :=
  m.run.run s = (.ok a, t)

/-! ## Outcomes of the basic steps -/

@[simp] theorem gives_pure {a b : α} {s t : σ} :
    Gives (pure a : ExceptT ε (StateM σ) α) s b t ↔ a = b ∧ s = t := by
  show ((Except.ok a, s) : Except ε α × σ) = (.ok b, t) ↔ _
  simp

@[simp] theorem gives_throw {e : ε} {a : α} {s t : σ} :
    ¬ Gives (throw e : ExceptT ε (StateM σ) α) s a t := by
  intro h
  have : ((Except.error e, s) : Except ε α × σ) = (.ok a, t) := h
  simp at this

@[simp] theorem gives_modify {f : σ → σ} {u : Unit} {s t : σ} :
    Gives (modify f : ExceptT ε (StateM σ) Unit) s u t ↔ f s = t := by
  show ((Except.ok (), f s) : Except ε Unit × σ) = (.ok u, t) ↔ _
  simp

@[simp] theorem gives_get {a s t : σ} :
    Gives (get : ExceptT ε (StateM σ) σ) s a t ↔ s = a ∧ s = t := by
  show ((Except.ok s, s) : Except ε σ × σ) = (.ok a, t) ↔ _
  simp

theorem gives_bind {m : ExceptT ε (StateM σ) α} {f : α → ExceptT ε (StateM σ) β} {s t : σ} {b : β} :
    Gives (m >>= f) s b t ↔ ∃ a u, Gives m s a u ∧ Gives (f a) u b t := by
  have unfolded : (m >>= f).run.run s =
      (ExceptT.bindCont f (m.run.run s).1).run (m.run.run s).2 := rfl
  constructor
  · intro h
    rw [Gives, unfolded] at h
    rcases made : m.run.run s with ⟨result, u⟩
    rw [made] at h
    cases result with
    | ok a => exact ⟨a, u, made, h⟩
    | error e => exact absurd h gives_throw
  · rintro ⟨a, u, first, second⟩
    rw [Gives, unfolded, show m.run.run s = (.ok a, u) from first]
    exact second

/-- A step has one outcome at most. -/
theorem Gives.unique {m : ExceptT ε (StateM σ) α} {s t t' : σ} {a a' : α} (h : Gives m s a t)
    (h' : Gives m s a' t') : a = a' ∧ t = t' := by
  have same : ((Except.ok a, t) : Except ε α × σ) = (.ok a', t') := h.symm.trans h'
  simpa using same

/-! ## Refinement -/

/-- Every outcome of the first step is one of the second. -/
def Refines (m n : ExceptT ε (StateM σ) α) : Prop := ∀ s a t, Gives m s a t → Gives n s a t

namespace Refines

theorem refl (m : ExceptT ε (StateM σ) α) : Refines m m := fun _ _ _ h => h

theorem of_eq {m n : ExceptT ε (StateM σ) α} (h : m = n) : Refines m n := h ▸ refl m

theorem trans {m n k : ExceptT ε (StateM σ) α} (h : Refines m n) (h' : Refines n k) :
    Refines m k :=
  fun s a t outcome => h' s a t (h s a t outcome)

theorem bind {m n : ExceptT ε (StateM σ) α} {f g : α → ExceptT ε (StateM σ) β} (h : Refines m n)
    (h' : ∀ a, Refines (f a) (g a)) : Refines (m >>= f) (n >>= g) := by
  intro s b t outcome
  obtain ⟨a, u, first, second⟩ := gives_bind.1 outcome
  exact gives_bind.2 ⟨a, u, h s a u first, h' a u b t second⟩

/-- The steps behind a common start. -/
theorem bind_right (m : ExceptT ε (StateM σ) α) {f g : α → ExceptT ε (StateM σ) β}
    (h : ∀ a, Refines (f a) (g a)) : Refines (m >>= f) (m >>= g) :=
  (refl m).bind h

theorem throw (e : ε) (n : ExceptT ε (StateM σ) α) : Refines (throw e) n :=
  fun _ _ _ outcome => absurd outcome gives_throw

end Refines

end

end ShapeCheck
