import ShapeCheck.Proofs.Evaluation.Observers

set_option autoImplicit false

/-! # Substitution and values

What an expression over one variable gives for a value, its instance with an argument in place of the
variable gives wherever the argument has that value. The instance may evaluate the argument many
times, once or never, and inside of inlined calls; none of this matters to an observer that ignores
all events, since evaluation changes nothing else.

Main facts: `Expr.eval_substitute` and, with it, `Expr.inlineCalls_refines` (writing out calls of
trivial predicates in an expression) and `Validator.valueOf_substitute` (whoever observes).
-/

namespace ShapeCheck

theorem emit_silent (event : Event) : emit Observer.silent event = (pure () : Run Unit Unit) := rfl

theorem explain_silent (reason : Option Reason) (passed : Bool) :
    explain Observer.silent reason passed = pure () := by
  cases reason <;> cases passed <;> rfl

/-! ## Trivial predicates -/

namespace Predicate

/-- Runs a trivial predicate. -/
def TrivialBody.run {σ : Type} (callee : TrivialBody) (observe : Observer σ)
    (call : String → Located → Run σ Bool) (argument : Located) : Run σ Bool := do
  let v ← callee.expr.eval observe call
    ⟨callee.parameter, none, [(callee.parameter, argument)]⟩
  explain observe callee.reason v.value.isTruthy
  return v.value.isTruthy

/-- The bodies are without calls and mention nothing but their parameters. -/
def AreTrivial (trivial : List (String × TrivialBody)) : Prop :=
  ∀ f callee, trivial.lookup f = some callee →
    callee.expr.calls = [] ∧ ∀ x ∈ callee.expr.varNames, x = callee.parameter

/-- The calls before a round and those after it: the latter refine the former, and a trivial body
can stand for the calls of its predicate. -/
structure Serves {σ : Type} (observe : Observer σ) (trivial : List (String × TrivialBody))
    (call call' : String → Located → Run σ Bool) : Prop where
  calls : ∀ f x, Refines (call f x) (call' f x)
  bodies : ∀ f callee, trivial.lookup f = some callee →
    ∀ x, Refines (call f x) (callee.run observe call' x)

end Predicate

namespace Expr

variable {call call' : String → Located → Run Unit Bool}

/-! ## Frames -/

/-- To an observer that ignores everything, frames with the same variables are the same. -/
theorem eval_silent_frame (e : Expr) :
    ∀ frame frame' : Frame, frame.bindings = frame'.bindings →
      Refines (e.eval Observer.silent call frame) (e.eval Observer.silent call frame') := by
  induction e using operandInduction with
  | step e ih =>
    intro frame frame' same
    obtain ⟨x, rfl⟩ | ⟨f, a, rfl⟩ | ⟨f, reason, a, b, rfl⟩ | operator := e.operator_or
    · simp only [eval, Frame.value, same]
      exact .refl _
    · simp only [eval, emit_silent]
      exact (ih a (by simp [operands]) frame frame' same).bind fun _ => .refl _
    · simp only [eval_inlined, emit_silent]
      refine .bind_right _ fun _ => ?_
      exact (ih b (by simp [operands]) (frame.checking a) (frame'.checking a) same).bind
        fun _ => .refl _
    · have changed := eval_mapOperands_refines operator
        (fun a ha => show Refines _ ((id a).eval Observer.silent call frame') from
          ih a ha frame frame' same)
      rwa [mapOperands_id] at changed

/-! ## Substitution -/

theorem eval_substitute {name : String} {argument : Expr} {x : Located}
    {bindings : List (String × Located)}
    (given : ∀ frame : Frame, frame.bindings = bindings →
      Gives (argument.eval Observer.silent call frame) () x ()) (e : Expr) :
    (∀ y ∈ e.varNames, y = name) → ∀ frame frame' : Frame, frame.bindings = [(name, x)] →
      frame'.bindings = bindings →
      Refines (e.eval Observer.silent call frame)
        ((e.substitute name argument).eval Observer.silent call frame') := by
  induction e using operandInduction with
  | step e ih =>
    intro only frame frame' alone same
    have parts (a : Expr) (ha : a ∈ e.operands) :=
      ih a ha fun y hy => only y (mem_varNames_of_operand ha hy)
    obtain ⟨y, rfl⟩ | ⟨f, a, rfl⟩ | ⟨f, reason, a, b, rfl⟩ | operator := e.operator_or
    · obtain rfl : y = name := only y (by simp [varNames, nodes, varName?])
      have value : (Expr.var y).eval Observer.silent call frame = pure x := by
        simp [eval, Frame.value, alone]
      rw [value]
      intro _ _ _ outcome
      obtain ⟨rfl, rfl⟩ := gives_pure.1 outcome
      simpa only [substitute, if_true] using given frame' same
    · simp only [eval, substitute, emit_silent]
      exact (parts a (by simp [operands]) frame frame' alone same).bind fun _ => .refl _
    · simp only [eval_inlined, substitute, emit_silent]
      refine .bind_right _ fun _ => ?_
      exact (parts b (by simp [operands]) (frame.checking a)
        (frame'.checking (a.substitute name argument)) alone same).bind fun _ => .refl _
    · rw [substitute_of_operator operator]
      exact eval_mapOperands_refines operator fun a ha => parts a ha frame frame' alone same

/-! ## Inlining -/

/-- A round refines every expression: arguments of inlined calls are evaluated where the bodies ask
for them instead of once in front. -/
theorem inlineCalls_refines {trivial : List (String × Predicate.TrivialBody)}
    (areTrivial : Predicate.AreTrivial trivial)
    (serves : Predicate.Serves Observer.silent trivial call call') (e : Expr) :
    ∀ frame : Frame, Refines (e.eval Observer.silent call frame)
      ((e.inlineCalls trivial).eval Observer.silent call' frame) := by
  induction e using operandInduction with
  | step e ih =>
    intro frame
    obtain ⟨x, rfl⟩ | ⟨f, a, rfl⟩ | ⟨f, reason, a, b, rfl⟩ | operator := e.operator_or
    · simp only [inlineCalls, eval]
      exact .refl _
    · cases known : trivial.lookup f with
      | none =>
        simp only [inlineCalls, known, eval, emit_silent]
        refine (ih a (by simp [operands]) frame).bind fun v => .bind_right _ fun _ => ?_
        exact (serves.calls f v).bind fun _ => .refl _
      | some callee =>
        simp only [inlineCalls, known, eval, eval_inlined, emit_silent, explain_silent, pure_bind]
        intro s b t outcome
        obtain ⟨v, _, argument, outcome⟩ := gives_bind.1 outcome
        obtain ⟨passed, _, called, outcome⟩ := gives_bind.1 outcome
        obtain ⟨rfl, rfl⟩ := gives_pure.1 outcome
        have given (frame' : Frame) (same : frame'.bindings = frame.bindings) :
            Gives (a.eval Observer.silent call' frame') () v () :=
          eval_silent_frame a frame frame' same.symm _ _ _
            (a.eval_refines (fun g _ => serves.calls g) frame _ _ _ argument)
        have run := serves.bodies f callee known v _ _ _ called
        simp only [Predicate.TrivialBody.run, explain_silent, pure_bind] at run
        obtain ⟨y, _, body, verdict⟩ := gives_bind.1 run
        obtain ⟨rfl, -⟩ := gives_pure.1 verdict
        have written := eval_substitute given callee.expr (areTrivial f callee known).2 _
          (frame.checking a) rfl rfl _ _ _ body
        exact gives_bind.2 ⟨y, (), written, gives_pure.2 ⟨rfl, rfl⟩⟩
    · simp only [inlineCalls, eval_inlined, emit_silent]
      refine .bind_right _ fun _ => ?_
      exact ((ih b (by simp [operands]) (frame.checking a)).trans
        (eval_silent_frame _ _ (frame.checking (a.inlineCalls trivial)) rfl)).bind fun _ => .refl _
    · rw [inlineCalls_of_operator operator]
      exact eval_mapOperands_refines operator fun a ha => ih a ha frame

end Expr

/-! ## Instances -/

namespace Validator

variable (v : Validator) {σ : Type} (observe : Observer σ) (depth : Nat)

theorem gives_silent {frame : Frame} {e : Expr} {x : Located} {s : σ}
    (h : v.valueOf observe depth s frame e = .ok x) :
    Gives (e.eval Observer.silent (v.invoke Observer.silent depth) frame) () x () := by
  rw [valueOf_eq_silent] at h
  exact Prod.ext h rfl

/-- If an argument has a value, an expression over one variable gives for this value what its instance
gives in the frame of the argument. Both are the same value at the same place, whoever observes. -/
theorem valueOf_substitute {parameter : String} {e argument : Expr}
    (only : e.onlyReferences parameter = true) {frame alone : Frame} {x y : Located}
    (binds : alone.bindings = [(parameter, x)]) {s t : σ}
    (given : v.valueOf observe depth s frame argument = .ok x)
    (value : v.valueOf observe depth t alone e = .ok y) (u : σ) :
    v.valueOf observe depth u frame (e.substitute parameter argument) = .ok y := by
  have everywhere (frame' : Frame) (same : frame'.bindings = frame.bindings) :
      Gives (argument.eval Observer.silent (v.invoke Observer.silent depth) frame') () x () :=
    argument.eval_silent_frame frame frame' same.symm _ _ _ (v.gives_silent observe depth given)
  have written := Expr.eval_substitute everywhere e ((Expr.onlyReferences_iff _ _).1 only) alone frame
    binds rfl _ _ _ (v.gives_silent observe depth value)
  rw [valueOf_eq_silent]
  exact congrArg Prod.fst written

/-- One predicate, which accepts arrays. -/
def arrayChecks : Validator :=
  { (default : Validator) with predicates := [⟨"isArray", "object", [.result (.isArray (.var "object"))], none⟩] }

/-- The value is equal to itself, and an array by a call and by one that is written out. -/
def sameArray : Expr :=
  .and [.strictEq (.var "object") (.var "object"), .call "isArray" (.var "object"),
    .inlined "isArray" none (.var "object") (.isArray (.var "object"))]

/-- An object that holds an empty array. -/
def boxFrame : Frame := ⟨"object", none, [("object", .whole (.object [("items", .array [])]))]⟩

/-- The array alone, at its place in the object. -/
def itemsFrame : Frame := ⟨"object", none, [("object", ⟨.array [], [0]⟩)]⟩

/-- The argument is itself written with the variable. Wherever the instance evaluates it, it is the same array.
-/
theorem valueOf_substitute_member :
    sameArray.onlyReferences "object" = true ∧ itemsFrame.bindings = [("object", ⟨.array [], [0]⟩)] ∧
      arrayChecks.valueOf Observer.log 1 [] boxFrame (.member (.var "object") "items") =
        .ok ⟨.array [], [0]⟩ ∧
      arrayChecks.valueOf Observer.log 1 [] itemsFrame sameArray = .ok (.ofBool true) ∧
      arrayChecks.valueOf Observer.log 1 [] boxFrame
        (sameArray.substitute "object" (.member (.var "object") "items")) = .ok (.ofBool true) := by
  have only : sameArray.onlyReferences "object" = true := rfl
  have given : arrayChecks.valueOf Observer.log 1 [] boxFrame (.member (.var "object") "items") =
      .ok ⟨.array [], [0]⟩ := rfl
  have value : arrayChecks.valueOf Observer.log 1 [] itemsFrame sameArray = .ok (.ofBool true) := rfl
  exact ⟨only, rfl, given, value, arrayChecks.valueOf_substitute Observer.log 1 only rfl given value []⟩

end Validator

end ShapeCheck
