import ShapeCheck.Proofs.Compilation.Registry

set_option autoImplicit false

/-! # Two runs side by side

`Follows stop R x y` compares the results of two runs: both succeed with related results, or both fail.
The first run may also fail alone, but only for a reason of the class `stop`; the second run never does.
`Tracks` says the same of two compilations that start on the same registry, and that they end on the same
one where both succeed.

Main facts: `Follows.bind`, `Tracks.bind` (sequences are compared step by step) and `Tracks.ensure` (two
predicates of one name are the same if their bodies are).
-/

namespace ShapeCheck

section
variable {α β γ δ : Type} {stop : CompileError → Prop} {R : α → β → Prop} {R' : γ → δ → Prop}

/-! ## Results -/

/-- No error ends one run alone. -/
abbrev Never : CompileError → Prop := fun _ => False

/-- Both runs succeed, with related results, or both fail; or only the first one fails, for a reason of
the class. -/
def Follows (stop : CompileError → Prop) (R : α → β → Prop) :
    Except CompileError α → Except CompileError β → Prop
  | .ok a, .ok b => R a b
  | .error _, .error _ => True
  | .error e, .ok _ => stop e
  | .ok _, .error _ => False

namespace Follows

variable {x : Except CompileError α} {y : Except CompileError β}

theorem ok {a : α} {b : β} (h : R a b) : Follows stop R (.ok a) (.ok b) := h

theorem error (e e' : CompileError) :
    Follows stop R (.error e : Except CompileError α) (.error e' : Except CompileError β) := trivial

theorem stopped {e : CompileError} (h : stop e) : Follows stop R (.error e : Except CompileError α) y := by
  cases y with
  | error e' => trivial
  | ok b => exact h

theorem refl (x : Except CompileError α) : Follows stop Eq x x := by
  cases x with
  | error e => trivial
  | ok a => exact rfl

theorem mono {Q : α → β → Prop} (h : Follows stop R x y) (weaker : ∀ a b, R a b → Q a b) :
    Follows stop Q x y := by
  cases x <;> cases y <;> first | exact h | exact weaker _ _ h

theorem bind {f : α → Except CompileError γ} {g : β → Except CompileError δ} (first : Follows stop R x y)
    (second : ∀ a b, R a b → Follows stop R' (f a) (g b)) : Follows stop R' (x >>= f) (y >>= g) := by
  cases x with
  | error e =>
    cases y with
    | error e' => exact error e e'
    | ok b => exact stopped first
  | ok a =>
    cases y with
    | error e' => exact first.elim
    | ok b => exact second a b first

/-- Where the first run succeeds, the second one does. -/
theorem exists_ok {a : α} (h : Follows stop R (.ok a) y) : ∃ b, y = .ok b ∧ R a b := by
  cases y with
  | error e => exact h.elim
  | ok b => exact ⟨b, rfl, h⟩

/-- Where the second run succeeds, the first one does or stops early. -/
theorem exists_ok_or_stopped {b : β} (h : Follows stop R x (.ok b)) :
    (∃ a, x = .ok a ∧ R a b) ∨ ∃ e, x = .error e ∧ stop e := by
  cases x with
  | error e => exact .inr ⟨e, rfl, h⟩
  | ok a => exact .inl ⟨a, rfl, h⟩

theorem mapM {f : α → Except CompileError γ} {g : β → Except CompileError δ} {as : List α} {bs : List β}
    (items : List.Forall₂ (fun a b => Follows stop R' (f a) (g b)) as bs) :
    Follows stop (List.Forall₂ R') (as.mapM f) (bs.mapM g) := by
  induction items with
  | nil => exact ok .nil
  | cons here _ ih =>
    rw [List.mapM_cons, List.mapM_cons]
    exact here.bind fun c d first => ih.bind fun cs ds rest => ok (.cons first rest)

theorem foldlM {f : γ → α → Except CompileError γ} {g : δ → β → Except CompileError δ} {as : List α}
    {bs : List β} (items : List.Forall₂ R as bs)
    (step : ∀ c d a b, R' c d → R a b → Follows stop R' (f c a) (g d b)) {c : γ} {d : δ} (start : R' c d) :
    Follows stop R' (as.foldlM f c) (bs.foldlM g d) := by
  induction items generalizing c d with
  | nil => exact ok start
  | cons here _ ih =>
    rw [List.foldlM_cons, List.foldlM_cons]
    exact (step _ _ _ _ start here).bind fun c d next => ih next

end Follows

/-! ## Compilations -/

/-- Started on the same registry, the two compilations end on the same one, with related results, or
both fail; or only the first one fails, for a reason of the class. -/
def Tracks (stop : CompileError → Prop) (R : α → β → Prop) (m : Build α) (n : Build β) : Prop :=
  ∀ r : Registry, Follows stop (fun a b => R a b ∧ (m.run.run r).2 = (n.run.run r).2)
    (m.run.run r).1 (n.run.run r).1

namespace Tracks

variable {m : Build α} {n : Build β}

theorem pure {a : α} {b : β} (h : R a b) : Tracks stop R (Pure.pure a) (Pure.pure b) :=
  fun _ => ⟨h, rfl⟩

theorem throw (e e' : CompileError) :
    Tracks stop R (MonadExcept.throw e : Build α) (MonadExcept.throw e' : Build β) := fun _ => trivial

theorem refl (m : Build α) : Tracks stop Eq m m := fun r =>
  (Follows.refl (m.run.run r).1).mono fun _ _ same => ⟨same, rfl⟩

theorem mono {Q : α → β → Prop} (h : Tracks stop R m n) (weaker : ∀ a b, R a b → Q a b) :
    Tracks stop Q m n :=
  fun r => (h r).mono fun a b both => ⟨weaker a b both.1, both.2⟩

theorem bind {f : α → Build γ} {g : β → Build δ} (first : Tracks stop R m n)
    (second : ∀ a b, R a b → Tracks stop R' (f a) (g b)) : Tracks stop R' (m >>= f) (n >>= g) := by
  intro r
  have here := first r
  have unfolded {α β : Type} (m : Build α) (f : α → Build β) : (m >>= f).run.run r =
      (ExceptT.bindCont f (m.run.run r).1).run (m.run.run r).2 := rfl
  rw [unfolded, unfolded]
  generalize m.run.run r = ended at here ⊢
  generalize n.run.run r = ended' at here ⊢
  obtain ⟨x, s⟩ := ended
  obtain ⟨y, t⟩ := ended'
  cases x with
  | error e =>
    cases y with
    | error e' => exact Follows.error e e'
    | ok b => exact Follows.stopped here
  | ok a =>
    cases y with
    | error e' => exact here.elim
    | ok b =>
      obtain ⟨related, same⟩ : R a b ∧ s = t := here
      subst same
      exact second a b related s

/-- The same start. -/
theorem bind_right (m : Build γ) {f : γ → Build α} {g : γ → Build β} (h : ∀ c, Tracks stop R (f c) (g c)) :
    Tracks stop R (m >>= f) (m >>= g) :=
  (refl m).bind fun a _ same => same ▸ h a

theorem lift {x : Except CompileError α} {y : Except CompileError β} (h : Follows stop R x y) :
    Tracks stop R (liftM x : Build α) (liftM y : Build β) := by
  intro r
  cases x with
  | error e =>
    cases y with
    | error e' => exact Follows.error e e'
    | ok b => exact Follows.stopped h
  | ok a =>
    cases y with
    | error e' => exact h.elim
    | ok b => exact ⟨h, rfl⟩

theorem mapM {f : α → Build γ} {g : β → Build δ} {as : List α} {bs : List β}
    (items : List.Forall₂ (fun a b => Tracks stop R' (f a) (g b)) as bs) :
    Tracks stop (List.Forall₂ R') (as.mapM f) (bs.mapM g) := by
  induction items with
  | nil => exact pure .nil
  | cons here _ ih =>
    rw [List.mapM_cons, List.mapM_cons]
    exact here.bind fun c d first => ih.bind fun cs ds rest => pure (.cons first rest)

/-- Steps for several items, of which some have no result. -/
theorem filterMapM {f : α → Build (Option γ)} {g : β → Build (Option γ)} {as : List α} {bs : List β}
    (items : List.Forall₂ (fun a b => Tracks stop Eq (f a) (g b)) as bs) :
    Tracks stop Eq (as.filterMapM f) (bs.filterMapM g) := by
  induction items with
  | nil => exact pure rfl
  | cons here _ ih =>
    rw [List.filterMapM_cons, List.filterMapM_cons]
    refine here.bind fun found _ same => ?_
    subst same
    cases found with
    | none => exact ih
    | some c => exact ih.bind fun cs _ same => same ▸ pure rfl

/-- Two predicates of one name are the same if their bodies are. -/
theorem ensure (name : String) (reason : Option Reason) {body body' : Build (List Stmt)}
    (h : Tracks stop Eq body body') :
    Tracks stop Eq (Build.ensure name reason body) (Build.ensure name reason body') := by
  unfold Build.ensure
  refine bind_right _ fun registry => ?_
  split
  · exact refl _
  · refine bind_right _ fun _ => h.bind fun stmts _ same => ?_
    subst same
    exact refl _

theorem ensureExpr (name : String) (reason : Option Reason) {body body' : Build Expr}
    (h : Tracks stop Eq body body') :
    Tracks stop Eq (Build.ensureExpr name reason body) (Build.ensureExpr name reason body') :=
  ensure name reason (h.bind fun _ _ same => same ▸ refl _)

end Tracks

end

end ShapeCheck
