import ShapeCheck.Proofs.Inlining.Reports

set_option autoImplicit false

/-! # Inlining undone

What a validator decides after its trivial predicates have been written out, it decides before as well:
a call that was written out needs one more level again, and a predicate that was dropped is back. So a
round costs one level, and all rounds together cost a fixed number of them.

Main fact: `Validator.evaluateWithin_of_inlined`.
-/

namespace ShapeCheck

namespace Validator

variable {σ : Type} {observe : Observer σ} {v : Validator}

/-- Pruning makes no call decide. -/
theorem prune_invoke_refines {root : String} (distinct : (v.predicates.map Predicate.name).Nodup)
    (depth : Nat) (name : String) (x : Located) :
    Refines ({ v with predicates := Predicate.prune v.predicates root }.invoke observe depth name x)
      (v.invoke observe depth name x) := by
  induction depth generalizing name x with
  | zero => exact invoke_zero_refines _ name x _
  | succ depth ih =>
    rw [invoke_succ, invoke_succ]
    cases found : { v with predicates := Predicate.prune v.predicates root }.predicate? name with
    | none => exact .throw _ _
    | some p =>
      obtain ⟨inside, rfl⟩ := predicate?_eq_some found
      rw [predicate?_of_mem distinct (Predicate.mem_prune.1 inside).1]
      exact Predicate.run_refines_of_calls (fun f _ y => ih f y) x

/-- What a call decides after a round it decides before, with one more level. -/
theorem round_invoke_refines (distinct : (v.predicates.map Predicate.name).Nodup)
    (tidy : ∀ p ∈ v.predicates, p.IsTidy) (depth : Nat) (name : String) (x : Located) :
    Refines ((v.round (Predicate.trivialBodies v.predicates)).invoke observe depth name x)
      (v.invoke observe (depth + 1) name x) := by
  induction depth generalizing name x with
  | zero => exact invoke_zero_refines _ name x _
  | succ depth ih =>
    rw [invoke_succ, invoke_succ, predicate?_round]
    cases found : v.predicate? name with
    | none => exact .throw _ _
    | some p =>
      obtain ⟨inside, rfl⟩ := predicate?_eq_some found
      -- a call that is written out does what the trivial predicate does on the level it needs again
      have served (f : String) (y : Located) :
          Refines (Predicate.served observe (Predicate.trivialBodies v.predicates)
            ((v.round (Predicate.trivialBodies v.predicates)).invoke observe depth) f y)
            (v.invoke observe (depth + 1) f y) := by
        unfold Predicate.served
        split
        · rename_i callee known
          obtain ⟨q, here, rfl, trivial⟩ := Predicate.lookup_trivialBodies known
          rw [invoke_succ, predicate?_of_mem distinct here]
          show Refines _ (q.run observe (v.invoke observe depth) y)
          rw [Predicate.run_of_trivialBody trivial]
          have noCalls := (Predicate.trivialBody?_eq_some trivial).2.2.2.1
          exact (callee.expr.eval_refines (by simp [noCalls]) _).bind fun _ => .refl _
        · exact ih f y
      have changed : Refines
          ((p.mapExprs (Expr.inlineCalls (Predicate.trivialBodies v.predicates))).run observe
            ((v.round (Predicate.trivialBodies v.predicates)).invoke observe depth) x)
          ((p.mapExprs id).run observe (v.invoke observe (depth + 1)) x) := by
        refine Predicate.run_mapExprs_refines (fun e listed frame _ => ?_) x
        rw [Expr.eval_inlineCalls_of_isTidy (Predicate.areTrivial_trivialBodies _)
          (Predicate.areTidy_trivialBodies tidy) e ((tidy p inside).exprs e listed) frame]
        exact e.eval_refines (fun f _ => served f) frame
      rwa [Predicate.mapExprs_id] at changed

theorem inlineRounds_invoke_refines (fuel : Nat) (v : Validator)
    (distinct : (v.predicates.map Predicate.name).Nodup) (tidy : ∀ p ∈ v.predicates, p.IsTidy)
    (depth : Nat) (name : String) (x : Located) :
    Refines ({ v with predicates := Predicate.inlineRounds fuel v.predicates }.invoke observe depth
      name x) (v.invoke observe (depth + fuel) name x) := by
  induction fuel generalizing v depth with
  | zero => exact .refl _
  | succ fuel ih =>
    unfold Predicate.inlineRounds
    dsimp only
    split
    · have good := (Predicate.inlinable_tidy observe).round v.predicates ⟨distinct, tidy⟩
      have later := ih (v.round (Predicate.trivialBodies v.predicates)) good.1 good.2 depth
      exact later.trans (round_invoke_refines distinct tidy (depth + fuel) name x)
    · exact v.invoke_mono (by omega) name x

/-- What is decided with the trivial predicates written out is decided without that, with a fixed
number of levels more, and an observer sees the same. -/
theorem evaluateWithin_of_inlined (distinct : (v.predicates.map Predicate.name).Nodup)
    (tidy : ∀ p ∈ v.predicates, p.IsTidy) (depth : Nat) (value : Value) :
    Refines (v.inlined.evaluateWithin observe depth value)
      (v.evaluateWithin observe (depth + Predicate.roundLimit v.predicates) value) := by
  intro s b t outcome
  obtain ⟨u, decided, rfl⟩ := gives_evaluateWithin.1 outcome
  refine gives_evaluateWithin.2 ⟨u, ?_, rfl⟩
  have names := names_inlineRounds (Predicate.roundLimit v.predicates) v.predicates
  have kept := prune_invoke_refines
    (v := { v with
      predicates := Predicate.inlineRounds (Predicate.roundLimit v.predicates) v.predicates })
    (by rw [names]; exact distinct) depth v.root (.whole value) _ _ _ decided
  exact inlineRounds_invoke_refines _ v distinct tidy depth _ _ _ _ _ kept

end Validator

end ShapeCheck
