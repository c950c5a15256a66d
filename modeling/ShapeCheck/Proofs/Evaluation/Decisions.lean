import ShapeCheck.Proofs.Evaluation.Laws
import ShapeCheck.Proofs.Evaluation.Observers
import ShapeCheck.Proofs.Keeps
import ShapeCheck.Validation.Diagnosis

set_option autoImplicit false

/-! # Decisions of a diagnosis

Evaluation enters and leaves predicates in pairs, also where a loop or a conjunction ends early. So a
diagnosis stands where it started when an evaluation has a result (`leadsBack`). The root is left at
the whole value, where every failure is at or below the current part: the diagnosis of a decided value
holds a failure exactly when the value is rejected.

Main fact: `Validator.check_iff_accepts` (the plain check and the report agree, and a decided value
needs no failure that the diagnosis does not hold).
-/

namespace ShapeCheck

namespace Diagnosis

/-- The diagnosis is on its way through this part with these predicates open. -/
def StandsAt (path : Path) (steps : List Bool) (d : Diagnosis) : Prop :=
  d.path = path ∧ d.steps = steps

/-- Wherever the evaluation starts, it stands there again when it has a result. -/
def LeadsBack {α : Type} (m : Run Diagnosis α) : Prop :=
  ∀ path steps, Keeps (StandsAt path steps) m fun _ => True

theorem standsAt_record {path : Path} {steps : List Bool} {d : Diagnosis} (failure : Failure)
    (h : d.StandsAt path steps) : (d.record failure).StandsAt path steps := h

theorem standsAt_forgive {path : Path} {steps : List Bool} {d : Diagnosis}
    (h : d.StandsAt path steps) : d.forgive.StandsAt path steps :=
  ⟨d.path_forgive.trans h.1, d.steps_forgive.trans h.2⟩

theorem standsAt_leave {path : Path} {steps : List Bool} {stepped : Bool} {d : Diagnosis}
    (h : d.StandsAt path (stepped :: steps)) :
    d.leave.StandsAt (if stepped then path.dropLast else path) steps := by
  obtain ⟨rfl, opened⟩ := h
  exact ⟨path_leave opened, by simp [leave, opened]⟩

/-- Leaving a predicate leads back to where it was entered, whatever happened to the failure. -/
theorem standsAt_exit {path : Path} {steps : List Bool} {d d' : Diagnosis}
    (segment : Option Segment) (passed : Bool) (name : String) (h : d.StandsAt path steps)
    (inside : d'.StandsAt (observe d (.enter segment)).path (observe d (.enter segment)).steps) :
    (observe d' (.exit passed name)).StandsAt path steps := by
  obtain ⟨rfl, rfl⟩ := h
  have told : (if passed then d'.forgive else d'.record (.mismatch d'.path name)).StandsAt
      (observe d (.enter segment)).path (observe d (.enter segment)).steps := by
    cases passed with
    | true => exact standsAt_forgive inside
    | false => exact standsAt_record _ inside
  cases segment with
  | none => exact standsAt_leave told
  | some segment =>
    have left := standsAt_leave told
    simpa [observe] using left

/-- Every part of an evaluation leads back. -/
theorem isLaw_leadsBack : IsLaw observe fun {α : Type} (m : Run Diagnosis α) => LeadsBack m where
  pure _ _ _ := .pure trivial
  bind first second path steps := (first path steps).bind fun a _ => second a path steps
  reason _ _ _ := .update fun _ h => standsAt_record _ h
  superfluousKey _ _ _ := .update fun _ h => standsAt_record _ h
  bracket segment name inside path steps := by
    intro d passed d' outcome stands
    obtain ⟨_, _, entered, outcome⟩ := gives_bind.1 outcome
    obtain rfl := gives_modify.1 entered
    obtain ⟨result, between, ran, outcome⟩ := gives_bind.1 outcome
    obtain ⟨_, _, left, outcome⟩ := gives_bind.1 outcome
    obtain rfl := gives_modify.1 left
    obtain ⟨-, rfl⟩ := gives_pure.1 outcome
    have stood := (inside _ _ _ _ _ ran ⟨rfl, rfl⟩).1
    exact ⟨standsAt_exit segment result name stands stood, trivial⟩

end Diagnosis

namespace Validator

open Diagnosis

theorem leadsBack_invoke (v : Validator) (depth : Nat) (name : String) (argument : Located) :
    LeadsBack (v.invoke Diagnosis.observe depth name argument) := by
  apply isLaw_leadsBack.invoke v (fun _ => True) (fun _ _ _ _ _ _ => trivial) _ _ depth trivial
  · exact fun path steps => Keeps.bind (.update fun _ h => h) fun _ _ => .throw _
  · exact fun name _ _ path steps => .throw _

theorem leadsBack_evaluateWithin (v : Validator) (depth : Nat) (value : Value) :
    LeadsBack (v.evaluateWithin Diagnosis.observe depth value) :=
  isLaw_leadsBack.evaluateWithin (v.leadsBack_invoke depth v.root _)

/-- The root decides about the failure: one that was found counts if the value is rejected. -/
theorem failure_evaluateWithin {v : Validator} {depth : Nat} {value : Value} {b : Bool}
    {d : Diagnosis} (h : Gives (v.evaluateWithin Diagnosis.observe depth value) .start b d) :
    d.failure.isSome ↔ b = false := by
  obtain ⟨u, decided, rfl⟩ := gives_evaluateWithin.1 h
  have back := v.leadsBack_invoke depth v.root (.whole value) [] [false] _ _ _ decided ⟨rfl, rfl⟩
  have atRoot : u.path = [] := back.1.1
  have opened : u.steps = [false] := back.1.2
  cases b with
  | true =>
    -- every path starts with the empty one, so nothing is left
    cases found : u.failure <;>
      simp [Diagnosis.observe, forgive, found, atRoot, leave, opened]
  | false =>
    cases found : u.failure <;>
      simp [Diagnosis.observe, record, found, leave, opened]

/-- The plain check and the report agree on every value, the result is the same for both observers,
and when there is one, the diagnosis has left all predicates and holds a failure exactly for a rejected
value: the one that is reported. -/
theorem check_iff_accepts (v : Validator) (value : Value) :
    (v.accepts value = true ↔ v.check value = .ok ()) ∧
    (v.evaluate Observer.silent () value).1 = (v.evaluate Diagnosis.observe .start value).1 ∧
    ∀ b d, v.evaluate Diagnosis.observe .start value = (.ok b, d) →
      d.path = [] ∧ d.steps = [] ∧ (d.failure.isSome ↔ b = false) ∧
        ∀ failure, d.failure = some failure → v.check value = .error failure := by
  have same := v.evaluate_fst Diagnosis.observe .start value
  refine ⟨?_, (v.evaluate_fst _ _ _).trans same.symm, fun b d outcome => ?_⟩
  · unfold accepts check
    rw [← same]
    rcases v.evaluate Diagnosis.observe .start value with ⟨result, d⟩
    rcases result with (_ | _) | (_ | _) <;> simp
  · have back := v.leadsBack_evaluateWithin maxCallDepth value [] [] _ _ _ outcome ⟨rfl, rfl⟩
    have decided := failure_evaluateWithin (show Gives _ _ _ _ from outcome)
    refine ⟨back.1.1, back.1.2, decided, fun failure found => ?_⟩
    obtain rfl : b = false := decided.1 (by simp [found])
    simp only [check, outcome, found, Option.getD_some]

/-- An object whose key `a` is a text, and the predicate of texts that it calls. -/
def textAt : Validator where
  root := "box"
  predicates := [
    ⟨"string", "input", [.result (.typeOfIs (.var "input") "string")], some .string⟩,
    ⟨"box", "input", [.rejectUnless (.call "string" (.member (.var "input") "a")),
      .result (.bool true)], none⟩]
  options := {}

theorem check_iff_accepts_textAt :
    textAt.evaluate Diagnosis.observe .start (.object [("a", .null)]) =
        (.ok false, ⟨[], [], some (.ofReason [.key "a"] .string)⟩) ∧
      textAt.check (.object [("a", .null)]) = .error (.ofReason [.key "a"] .string) := by
  have decided : textAt.evaluate Diagnosis.observe .start (.object [("a", .null)]) =
      (.ok false, ⟨[], [], some (.ofReason [.key "a"] .string)⟩) := rfl
  have agrees := textAt.check_iff_accepts (.object [("a", .null)])
  exact ⟨decided, (agrees.2.2 _ _ decided).2.2.2 _ rfl⟩

end Validator

end ShapeCheck
