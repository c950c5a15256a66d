import ShapeCheck.Proofs.Inlining.Reachable
import ShapeCheck.Proofs.Inlining.Substitution

set_option autoImplicit false

/-! # Inlining keeps verdicts

A round writes out calls of trivial predicates. If this refines every expression, it refines every
predicate, however many calls may be nested: the predicate that a call leads to has lost some calls
in its own body, but it needs no more levels than before. Repeated rounds and pruning then refine
the whole validator.

What has to hold of the predicates, so that a round refines their expressions, is a parameter here
(`Inlinable`). For an observer that ignores everything it is only that names are not repeated, which
gives `Validator.verdict_inlineTrivial`.
-/

namespace ShapeCheck

namespace Predicate

/-! ## Trivial bodies -/

theorem trivialBody?_eq_some {p : Predicate} {callee : TrivialBody}
    (h : p.trivialBody? = some callee) :
    p.body = [.result callee.expr] ∧ callee.parameter = p.parameter ∧ callee.reason = p.reason ∧
      callee.expr.calls = [] ∧ ∀ x ∈ callee.expr.varNames, x = callee.parameter := by
  unfold trivialBody? at h
  split at h
  · rename_i trivial
    obtain ⟨e, body, calls, only⟩ := (isTrivial_iff p).1 trivial
    obtain rfl : ⟨e, p.parameter, p.reason⟩ = callee := by
      simpa [singleResult?, body] using h
    exact ⟨body, rfl, rfl, calls, only⟩
  · cases h

theorem lookup_trivialBodies {predicates : List Predicate} {f : String} {callee : TrivialBody}
    (h : (trivialBodies predicates).lookup f = some callee) :
    ∃ p ∈ predicates, p.name = f ∧ p.trivialBody? = some callee := by
  obtain ⟨before, after, split, -⟩ := List.lookup_eq_some_iff.1 h
  have listed : (f, callee) ∈ trivialBodies predicates := by simp [split]
  obtain ⟨p, inside, made⟩ := List.mem_filterMap.1 listed
  obtain ⟨body, found, same⟩ := Option.map_eq_some_iff.1 made
  obtain ⟨rfl, rfl⟩ := Prod.mk.inj same
  exact ⟨p, inside, rfl, found⟩

theorem areTrivial_trivialBodies (predicates : List Predicate) :
    AreTrivial (trivialBodies predicates) := by
  intro f callee known
  obtain ⟨p, _, _, found⟩ := lookup_trivialBodies known
  exact (trivialBody?_eq_some found).2.2.2

/-- A trivial predicate runs as its body says. -/
theorem run_of_trivialBody {σ : Type} {observe : Observer σ}
    {call : String → Located → Run σ Bool} {p : Predicate} {callee : TrivialBody}
    (h : p.trivialBody? = some callee) (argument : Located) :
    p.run observe call argument = callee.run observe call argument := by
  obtain ⟨body, parameter, reason, -, -⟩ := trivialBody?_eq_some h
  simp [run_eq, TrivialBody.run, body, parameter, reason, Stmt.execAll, Stmt.exec, Frame.start]

/-! ## One round -/

/-- The predicates that a class holds have distinct names, and a round refines their expressions and
stays in the class. -/
structure Inlinable {σ : Type} (observe : Observer σ) (Good : List Predicate → Prop) : Prop where
  distinct : ∀ predicates, Good predicates → (predicates.map name).Nodup
  round : ∀ predicates, Good predicates →
    Good (predicates.map (inlineRound (trivialBodies predicates)))
  refines : ∀ predicates, Good predicates → ∀ call call' : String → Located → Run σ Bool,
    Serves observe (trivialBodies predicates) call call' →
    ∀ p ∈ predicates, ∀ e ∈ p.exprs, ∀ frame : Frame, frame.IsOpen p.parameter →
      Refines (e.eval observe call frame)
        ((e.inlineCalls (trivialBodies predicates)).eval observe call' frame)

theorem name_inlineRound (trivial : List (String × TrivialBody)) (p : Predicate) :
    (p.inlineRound trivial).name = p.name := rfl

theorem names_round (trivial : List (String × TrivialBody)) (predicates : List Predicate) :
    (predicates.map (inlineRound trivial)).map name = predicates.map name := by
  simp [Function.comp_def, name_inlineRound]

end Predicate

namespace Validator

variable {σ : Type} {observe : Observer σ}

/-- The validator after a round. -/
def round (v : Validator) (trivial : List (String × Predicate.TrivialBody)) : Validator :=
  { v with predicates := v.predicates.map (Predicate.inlineRound trivial) }

theorem predicate?_round (v : Validator) (trivial : List (String × Predicate.TrivialBody))
    (name : String) :
    (v.round trivial).predicate? name = (v.predicate? name).map (Predicate.inlineRound trivial) := by
  unfold predicate? round
  simp only [← List.map_reverse, List.find?_map]
  rfl

/-- A round refines every call, for any number of levels. -/
theorem invoke_round_refines {Good : List Predicate → Prop}
    (inlinable : Predicate.Inlinable observe Good) {v : Validator} (good : Good v.predicates)
    (depth : Nat) :
    ∀ name x, Refines (v.invoke observe depth name x)
      ((v.round (Predicate.trivialBodies v.predicates)).invoke observe depth name x) := by
  induction depth with
  | zero => exact fun name x => invoke_zero_refines _ name x _
  | succ depth ih =>
    intro name x
    rw [invoke_succ, invoke_succ, predicate?_round]
    cases found : v.predicate? name with
    | none => exact .refl _
    | some p =>
      obtain ⟨inside, rfl⟩ := predicate?_eq_some found
      refine Predicate.run_refines (fun e he frame isOpen => ?_) x
      refine inlinable.refines _ good _ _ ⟨ih, ?_⟩ p inside e he frame isOpen
      intro f callee known y
      -- a call that decides has a level left, and on that level the body is without calls
      cases depth with
      | zero => exact invoke_zero_refines _ f y _
      | succ depth =>
        obtain ⟨q, here, rfl, trivial⟩ := Predicate.lookup_trivialBodies known
        rw [invoke_succ, predicate?_of_mem (inlinable.distinct _ good) here]
        show Refines (q.run observe (v.invoke observe depth) y) _
        rw [Predicate.run_of_trivialBody trivial]
        have noCalls := (Predicate.trivialBody?_eq_some trivial).2.2.2.1
        exact (callee.expr.eval_refines (by simp [noCalls]) _).bind fun _ => .refl _

/-! ## All rounds -/

theorem invoke_inlineRounds_refines {Good : List Predicate → Prop}
    (inlinable : Predicate.Inlinable observe Good) (fuel : Nat) :
    ∀ v : Validator, Good v.predicates → ∀ depth name x,
      Refines (v.invoke observe depth name x)
        ({ v with predicates := Predicate.inlineRounds fuel v.predicates }.invoke
          observe depth name x) := by
  induction fuel with
  | zero => exact fun v _ depth name x => .refl _
  | succ fuel ih =>
    intro v good depth name x
    unfold Predicate.inlineRounds
    dsimp only
    split
    · exact (invoke_round_refines inlinable good depth name x).trans
        (ih (v.round _) (inlinable.round _ good) depth name x)
    · exact .refl (v.invoke observe depth name x)

theorem names_inlineRounds (fuel : Nat) (predicates : List Predicate) :
    (Predicate.inlineRounds fuel predicates).map Predicate.name =
      predicates.map Predicate.name := by
  induction fuel generalizing predicates with
  | zero => rfl
  | succ fuel ih =>
    unfold Predicate.inlineRounds
    dsimp only
    split
    · rw [ih, Predicate.names_round]
    · rfl

/-- The validator with its trivial predicates written out. -/
def inlined (v : Validator) : Validator :=
  { v with predicates := Predicate.inlineTrivial v.predicates v.root }

theorem evaluateWithin_inlined_refines {Good : List Predicate → Prop}
    (inlinable : Predicate.Inlinable observe Good) {v : Validator} (good : Good v.predicates)
    (depth : Nat) (value : Value) :
    Refines (v.evaluateWithin observe depth value)
      (v.inlined.evaluateWithin observe depth value) := by
  refine evaluateWithin_refines rfl ?_
  refine (invoke_inlineRounds_refines inlinable (Predicate.roundLimit v.predicates) v good depth
    v.root (.whole value)).trans ?_
  refine invoke_prune_refines
    (v := { v with
      predicates := Predicate.inlineRounds (Predicate.roundLimit v.predicates) v.predicates })
    ?_ depth v.root (Predicate.mem_reachable_root _ _) (.whole value)
  rw [names_inlineRounds]
  exact inlinable.distinct _ good

end Validator

/-! ## Verdicts -/

theorem Predicate.inlinable_silent :
    Inlinable Observer.silent fun predicates => (predicates.map name).Nodup where
  distinct _ h := h
  round predicates h := by rwa [names_round]
  refines predicates _ _ _ serves _ _ e _ frame _ :=
    Expr.inlineCalls_refines (areTrivial_trivialBodies predicates) serves e frame

theorem Validator.verdict_eq_ok {v : Validator} {value : Value} {b : Bool} :
    v.verdict value = .ok b ↔ Gives (v.evaluateWithin Observer.silent maxCallDepth value) () b () :=
  ⟨fun h => Prod.ext h rfl, fun h => congrArg Prod.fst h⟩

/-- Writing out the calls of trivial predicates and dropping what is no longer called keeps every
verdict, whatever the predicates are. -/
theorem Validator.verdict_inlineTrivial {v : Validator}
    (distinct : (v.predicates.map Predicate.name).Nodup) {value : Value} {b : Bool}
    (decided : v.verdict value = .ok b) :
    { v with predicates := Predicate.inlineTrivial v.predicates v.root }.verdict value = .ok b := by
  rw [verdict_eq_ok] at decided
  exact verdict_eq_ok.2
    (evaluateWithin_inlined_refines Predicate.inlinable_silent distinct _ value _ _ _ decided)

/-- A predicate that asks twice for its argument, called on a call of another one. -/
def nestedCalls : Validator where
  root := "root"
  predicates :=
    [⟨"root", "object", [.result (.call "twice" (.call "string" (.member .parameter "a")))], none⟩,
      ⟨"twice", "x", [.result (.and [.typeOfIs (.var "x") "boolean", .var "x"])], none⟩,
      ⟨"string", "object", [.result (.typeOfIs .parameter "string")], some .string⟩]
  options := {}

theorem verdict_inlineTrivial_nestedCalls :
    (nestedCalls.predicates.map Predicate.name).Nodup ∧
      nestedCalls.verdict (.object [("a", .string "b")]) = .ok true ∧
        { nestedCalls with
          predicates := Predicate.inlineTrivial nestedCalls.predicates nestedCalls.root }.verdict
            (.object [("a", .string "b")]) = .ok true := by
  have distinct : (nestedCalls.predicates.map Predicate.name).Nodup := by decide
  have decided : nestedCalls.verdict (.object [("a", .string "b")]) = .ok true := by rfl
  exact ⟨distinct, decided, Validator.verdict_inlineTrivial distinct decided⟩

end ShapeCheck
