import ShapeCheck.Proofs.Outcome

set_option autoImplicit false

/-! # Ways to fail

`OnlyErrors E m` says of a result that it is one of the class `E` if it is an error, and `OnlyFails E m`
says the same of a step over a state. Nothing is said of steps that do not fail, so a sequence fails only
as its parts do.

Main facts: `OnlyErrors.bind` and `OnlyFails.bind`.
-/

namespace ShapeCheck

/-! ## Results -/

section
variable {ε α β : Type} {E : ε → Prop}

/-- If this is an error, it is of this class. -/
def OnlyErrors (E : ε → Prop) (m : Except ε α) : Prop := ∀ e, m = .error e → E e

namespace OnlyErrors

theorem ok (a : α) : OnlyErrors E (.ok a : Except ε α) := nofun

theorem error {e : ε} (h : E e) : OnlyErrors E (.error e : Except ε α) := by
  rintro _ ⟨⟩
  exact h

theorem bind {m : Except ε α} {f : α → Except ε β} (first : OnlyErrors E m)
    (second : ∀ a, m = .ok a → OnlyErrors E (f a)) : OnlyErrors E (m >>= f) := by
  cases m with
  | error e => exact .error (first e rfl)
  | ok a => exact second a rfl

/-- A sequence has the errors of its first part. -/
theorem of_bind {m : Except ε α} {f : α → Except ε β} (h : OnlyErrors E (m >>= f)) : OnlyErrors E m := by
  rintro e rfl
  exact h e rfl

theorem mapM {f : α → Except ε β} {items : List α} (h : ∀ a ∈ items, OnlyErrors E (f a)) :
    OnlyErrors E (items.mapM f) := by
  induction items with
  | nil => exact .ok []
  | cons a rest ih =>
    rw [List.mapM_cons]
    refine (h a (by simp)).bind fun b _ => ?_
    exact (ih fun c hc => h c (by simp [hc])).bind fun bs _ => .ok _

theorem foldlM {f : β → α → Except ε β} {items : List α}
    (h : ∀ b, ∀ a ∈ items, OnlyErrors E (f b a)) (b : β) : OnlyErrors E (items.foldlM f b) := by
  induction items generalizing b with
  | nil => exact .ok b
  | cons a rest ih =>
    rw [List.foldlM_cons]
    exact (h b a (by simp)).bind fun b' _ => ih (fun b c hc => h b c (by simp [hc])) b'

end OnlyErrors

end

/-! ## Steps -/

section
variable {ε σ α β : Type} {E : ε → Prop}

/-- All errors of the step are of this class. -/
def OnlyFails (E : ε → Prop) (m : ExceptT ε (StateM σ) α) : Prop :=
  ∀ s e t, m.run.run s = (.error e, t) → E e

namespace OnlyFails

theorem pure (a : α) : OnlyFails E (Pure.pure a : ExceptT ε (StateM σ) α) := by
  intro s e t failed
  have impossible : ((Except.ok a, s) : Except ε α × σ) = (.error e, t) := failed
  simp at impossible

theorem throw {e : ε} (h : E e) : OnlyFails E (MonadExcept.throw e : ExceptT ε (StateM σ) α) := by
  intro s e' t failed
  have same : ((Except.error e, s) : Except ε α × σ) = (.error e', t) := failed
  obtain ⟨rfl, -⟩ : e = e' ∧ s = t := by simpa using same
  exact h

theorem update (f : σ → σ) : OnlyFails E (modify f : ExceptT ε (StateM σ) Unit) := by
  intro s e t failed
  have impossible : ((Except.ok (), f s) : Except ε Unit × σ) = (.error e, t) := failed
  simp at impossible

theorem read : OnlyFails E (get : ExceptT ε (StateM σ) σ) := by
  intro s e t failed
  have impossible : ((Except.ok s, s) : Except ε σ × σ) = (.error e, t) := failed
  simp at impossible

theorem lift {m : Except ε α} (h : OnlyErrors E m) :
    OnlyFails E (liftM m : ExceptT ε (StateM σ) α) := by
  cases m with
  | error e => exact .throw (h e rfl)
  | ok a => exact .pure a

/-- What follows a step has to be looked at for the results of this step only. -/
theorem bind_of_gives {m : ExceptT ε (StateM σ) α} {f : α → ExceptT ε (StateM σ) β}
    (first : OnlyFails E m) (second : ∀ s a t, Gives m s a t → OnlyFails E (f a)) :
    OnlyFails E (m >>= f) := by
  intro s e t failed
  have unfolded : (m >>= f).run.run s =
      (ExceptT.bindCont f (m.run.run s).1).run (m.run.run s).2 := rfl
  rw [unfolded] at failed
  rcases made : m.run.run s with ⟨result, u⟩
  rw [made] at failed
  cases result with
  | error e' =>
    have same : ((Except.error e', u) : Except ε β × σ) = (.error e, t) := failed
    obtain ⟨rfl, rfl⟩ : e' = e ∧ u = t := by simpa using same
    exact first s e' u made
  | ok a => exact second s a u made u e t failed

theorem bind {m : ExceptT ε (StateM σ) α} {f : α → ExceptT ε (StateM σ) β} (first : OnlyFails E m)
    (second : ∀ a, OnlyFails E (f a)) : OnlyFails E (m >>= f) :=
  first.bind_of_gives fun _ a _ _ => second a

theorem lift_bind {m : Except ε α} {f : α → ExceptT ε (StateM σ) β} (first : OnlyErrors E m)
    (second : ∀ a, m = .ok a → OnlyFails E (f a)) :
    OnlyFails E ((liftM m : ExceptT ε (StateM σ) α) >>= f) := by
  cases m with
  | error e => exact .throw (first e rfl)
  | ok a => exact second a rfl

/-- Steps for several items. -/
theorem mapM {f : α → ExceptT ε (StateM σ) β} {items : List α} (h : ∀ a ∈ items, OnlyFails E (f a)) :
    OnlyFails E (items.mapM f) := by
  induction items with
  | nil => exact .pure []
  | cons a rest ih =>
    rw [List.mapM_cons]
    refine (h a (by simp)).bind fun b => ?_
    exact (ih fun c hc => h c (by simp [hc])).bind fun bs => .pure _

/-- Steps for several items, of which some have no result. -/
theorem filterMapM {f : α → ExceptT ε (StateM σ) (Option β)} {items : List α}
    (h : ∀ a ∈ items, OnlyFails E (f a)) : OnlyFails E (items.filterMapM f) := by
  induction items with
  | nil => exact .pure []
  | cons a rest ih =>
    rw [List.filterMapM_cons]
    refine (h a (by simp)).bind fun found => ?_
    have below := ih fun c hc => h c (by simp [hc])
    cases found with
    | none => exact below
    | some b => exact below.bind fun bs => .pure _

end OnlyFails

end

/-! ## Building predicates -/

namespace Build

variable {E : CompileError → Prop}

theorem onlyFails_ensure {name : String} {reason : Option Reason} {body : Build (List Stmt)}
    (h : OnlyFails E body) : OnlyFails E (ensure name reason body) := by
  unfold ensure
  refine OnlyFails.read.bind fun registry => ?_
  split
  · exact .pure name
  · exact (OnlyFails.update _).bind fun _ => h.bind fun _ => (OnlyFails.update _).bind fun _ => .pure name

theorem onlyFails_ensureExpr {name : String} {reason : Option Reason} {body : Build Expr}
    (h : OnlyFails E body) : OnlyFails E (ensureExpr name reason body) :=
  onlyFails_ensure (h.bind fun _ => .pure _)

theorem onlyFails_optional (inner : String) : OnlyFails E (optional inner) :=
  onlyFails_ensureExpr (.pure _)

end Build

end ShapeCheck
