import ShapeCheck.Validation.Evaluation

set_option autoImplicit false

/-! # Diagnosis

A `Diagnosis` is an observer that finds out why a value was rejected. It follows the path to the
part that is being checked and keeps the first failure. When a predicate passes, a failure at or
below its part belonged to an alternative that did not matter, and is dropped.

Main fact: `Diagnosis.observe_enter_exit` (entering a predicate and leaving it again leads back to
the same part).
-/

namespace ShapeCheck

/-- What is known about a rejection. -/
structure Diagnosis where
  /-- The way to the part that is being checked. -/
  path : Path := []
  /-- For every predicate that is open, the last entered first: it went one step further. -/
  steps : List Bool := []
  /-- The failure that has been found. -/
  failure : Option Failure := none
  deriving DecidableEq, Repr, Inhabited

namespace Diagnosis

/-- Nothing is known. -/
def start : Diagnosis := {}

/-- Keeps a failure unless there is one. -/
def record (d : Diagnosis) (failure : Failure) : Diagnosis :=
  { d with failure := d.failure <|> some failure }

/-- Drops the failure if it is at or below the current part. -/
def forgive (d : Diagnosis) : Diagnosis :=
  match d.failure with
  | some failure => if d.path.isPrefixOf failure.path then { d with failure := none } else d
  | none => d

/-- Goes back to where the predicate entered last started. -/
def leave (d : Diagnosis) : Diagnosis :=
  match d.steps with
  | [] => d
  | stepped :: steps => { d with path := if stepped then d.path.dropLast else d.path, steps }

/-- Takes note of an event. -/
def observe : Observer Diagnosis
  | d, .enter (some segment) =>
    { d with path := d.path ++ [segment], steps := true :: d.steps }
  | d, .enter none => { d with steps := false :: d.steps }
  | d, .exit passed name =>
    (if passed then d.forgive else d.record (.mismatch d.path name)).leave
  | d, .reason reason => d.record (.ofReason d.path reason)
  | d, .superfluousKey key => d.record (.superfluousKey d.path key)
  -- the limit is the one failure that takes the place of an earlier one
  | d, .depthExceeded => { d with failure := some (.depthExceeded d.path) }

theorem path_record (d : Diagnosis) (failure : Failure) : (d.record failure).path = d.path := rfl

theorem steps_record (d : Diagnosis) (failure : Failure) : (d.record failure).steps = d.steps := rfl

theorem path_forgive (d : Diagnosis) : d.forgive.path = d.path := by
  unfold forgive
  split
  · split <;> rfl
  · rfl

theorem steps_forgive (d : Diagnosis) : d.forgive.steps = d.steps := by
  unfold forgive
  split
  · split <;> rfl
  · rfl

theorem path_leave {d : Diagnosis} {stepped : Bool} {steps : List Bool}
    (h : d.steps = stepped :: steps) :
    d.leave.path = if stepped then d.path.dropLast else d.path := by
  simp [leave, h]

theorem observe_enter_exit (d : Diagnosis) (segment : Option Segment) (passed : Bool)
    (name : String) :
    (observe (observe d (.enter segment)) (.exit passed name)).path = d.path := by
  cases passed <;> cases segment <;>
    simp [observe, leave, path_forgive, steps_forgive, path_record, steps_record]

end Diagnosis

namespace Validator

/-- Checks a value: the failure that decided, if it does not pass. -/
def check (v : Validator) (value : Value) : Except Failure Unit :=
  match v.evaluate Diagnosis.observe .start value with
  | (.ok true, _) => .ok ()
  | (.ok false, d) => .error (d.failure.getD (.mismatch [] v.root))
  | (.error .depthExceeded, d) => .error (d.failure.getD (.depthExceeded []))
  | (.error (.unknownPredicate name), _) =>
    .error ⟨(Halt.unknownPredicate name).message, [], none⟩

end Validator

end ShapeCheck
