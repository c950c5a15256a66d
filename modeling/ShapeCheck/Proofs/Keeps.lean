import ShapeCheck.Proofs.Naming.Depth
import ShapeCheck.Proofs.Outcome

set_option autoImplicit false

/-! # What steps keep

`Keeps I m Q` says that the step `m` leads from states with the invariant `I` to such states again, and
that its results satisfy `Q`. Steps that end in an error keep everything. For compilations the states
are registries, for evaluations those of an observer.

Main facts: `Keeps.bind` (what a sequence keeps), `Keeps.mapM` and `Keeps.filterMapM` (what the same
step for several items keeps).
-/

namespace ShapeCheck

/-! ## Steps -/

section
variable {ε σ α β : Type}

/-- The step keeps the invariant, and its results satisfy the property. -/
def Keeps (I : σ → Prop) (m : ExceptT ε (StateM σ) α) (Q : α → Prop) : Prop :=
  ∀ s a t, Gives m s a t → I s → I t ∧ Q a

namespace Keeps

variable {I : σ → Prop} {Q : α → Prop} {Q' : β → Prop}

theorem pure {a : α} (h : Q a) : Keeps I (Pure.pure a : ExceptT ε (StateM σ) α) Q := by
  intro r b r' outcome holds
  obtain ⟨rfl, rfl⟩ := gives_pure.1 outcome
  exact ⟨holds, h⟩

theorem throw (e : ε) : Keeps I (MonadExcept.throw e : ExceptT ε (StateM σ) α) Q :=
  fun _ _ _ outcome => absurd outcome gives_throw

theorem bind {m : ExceptT ε (StateM σ) α} {f : α → ExceptT ε (StateM σ) β} (first : Keeps I m Q)
    (second : ∀ a, Q a → Keeps I (f a) Q') : Keeps I (m >>= f) Q' := by
  intro r b r' outcome holds
  obtain ⟨a, u, made, rest⟩ := gives_bind.1 outcome
  obtain ⟨between, good⟩ := first r a u made holds
  exact second a good u b r' rest between

theorem mono {m : ExceptT ε (StateM σ) α} {P : α → Prop} (h : Keeps I m P) (weaker : ∀ a, P a → Q a) :
    Keeps I m Q := by
  intro r a r' outcome holds
  obtain ⟨after, good⟩ := h r a r' outcome holds
  exact ⟨after, weaker a good⟩

theorem and_result {m : ExceptT ε (StateM σ) α} {P : α → Prop} (h : Keeps I m Q)
    (h' : Keeps (fun _ => True) m P) : Keeps I m fun a => Q a ∧ P a := by
  intro s a t outcome holds
  obtain ⟨after, good⟩ := h s a t outcome holds
  exact ⟨after, good, (h' s a t outcome trivial).2⟩

/-- What is read is a state with the invariant. -/
theorem get_bind {f : σ → ExceptT ε (StateM σ) β} (h : ∀ r, I r → Keeps I (f r) Q') :
    Keeps I (get >>= f) Q' := by
  intro r b r' outcome holds
  obtain ⟨_, _, found, rest⟩ := gives_bind.1 outcome
  obtain ⟨rfl, rfl⟩ := gives_get.1 found
  exact h r holds r b r' rest holds

theorem update {f : σ → σ} (h : ∀ s, I s → I (f s)) :
    Keeps I (modify f : ExceptT ε (StateM σ) Unit) fun _ => True := by
  intro r a r' outcome holds
  obtain rfl := gives_modify.1 outcome
  exact ⟨h r holds, trivial⟩

/-- Steps for several items, with their results in the same order. -/
theorem mapM {f : α → ExceptT ε (StateM σ) β} {R : α → β → Prop} {items : List α}
    (h : ∀ a ∈ items, Keeps I (f a) (R a)) : Keeps I (items.mapM f) (List.Forall₂ R items) := by
  induction items with
  | nil => exact .pure .nil
  | cons a rest ih =>
    rw [List.mapM_cons]
    refine (h a (by simp)).bind fun b here => ?_
    refine (ih fun c hc => h c (by simp [hc])).bind fun bs below => ?_
    exact .pure (.cons here below)

/-- Steps for several items, of which some have no result. -/
theorem filterMapM {f : α → ExceptT ε (StateM σ) (Option β)} {R : α → Option β → Prop} {items : List α}
    (h : ∀ a ∈ items, Keeps I (f a) (R a)) :
    Keeps I (items.filterMapM f)
      fun bs => ∃ found, List.Forall₂ R items found ∧ found.filterMap id = bs := by
  induction items with
  | nil => exact .pure ⟨[], .nil, rfl⟩
  | cons a rest ih =>
    rw [List.filterMapM_cons]
    refine (h a (by simp)).bind fun found here => ?_
    have below := ih fun c hc => h c (by simp [hc])
    cases found with
    | none =>
      refine below.mono ?_
      rintro bs ⟨found, related, rfl⟩
      exact ⟨none :: found, .cons here related, rfl⟩
    | some b =>
      refine below.bind ?_
      rintro bs ⟨found, related, rfl⟩
      exact .pure ⟨some b :: found, .cons here related, rfl⟩

end Keeps

end

end ShapeCheck
