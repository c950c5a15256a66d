import ShapeCheck.Compile.Composite
import ShapeCheck.Proofs.Evaluation.Traces

set_option autoImplicit false

/-! # Alternatives that reject

A union calls the predicates of its members on the value as a whole, one after the other, until one of them
accepts. Where all of them reject, its events are visits to the current part, in which the members do what
each of them does by itself. A part that may be absent has a single alternative besides `undefined`.

Main facts: `Validator.gives_alternatives` and `Validator.exists_of_gives_optional`.
-/

namespace ShapeCheck

/-- A single result without a reason decides. -/
theorem Predicate.gives_run_result {σ : Type} {observe : Observer σ} {call : String → Located → Run σ Bool}
    {p : Predicate} {e : Expr} (body : p.body = [.result e]) (silent : p.reason = none) {x : Located} {s t : σ}
    {b : Bool} :
    Gives (p.run observe call x) s b t ↔
      ∃ y, Gives (e.eval observe call (Frame.start p x)) s y t ∧ y.value.isTruthy = b := by
  have explained (b : Bool) : explain observe none b = pure () := by cases b <;> rfl
  simp only [run_eq, body, silent, explained, Stmt.execAll, Stmt.exec, bind_assoc, pure_bind, Option.getD_some,
    gives_bind, gives_pure]
  constructor
  · rintro ⟨y, u, ran, same, rfl⟩
    exact ⟨y, ran, same⟩
  · rintro ⟨y, ran, same⟩
    exact ⟨y, t, ran, same, rfl⟩

namespace Expr

/-- Where no alternative is true, the first is false, and so are the others. -/
theorem gives_evalOr_cons {σ : Type} {observe : Observer σ} {call : String → Located → Run σ Bool} {frame : Frame}
    {e : Expr} {rest : List Expr} {s t : σ} (h : Gives (evalOr observe call frame (e :: rest)) s false t) :
    ∃ y u, Gives (e.eval observe call frame) s y u ∧ y.value.isTruthy = false ∧
      Gives (evalOr observe call frame rest) u false t := by
  obtain ⟨y, u, first, others⟩ := gives_bind.1 h
  split at others
  · cases (gives_pure.1 others).1
  · rename_i rejected
    exact ⟨y, u, first, by simpa using rejected, others⟩

variable {call : String → Located → Run (List Event) Bool} {frame : Frame}

/-- A call on the parameter is a visit to the current part. -/
theorem gives_callOn {name : String} {log log' : List Event} {y : Located} :
    Gives ((callOn name).eval Observer.log call frame) log y log' ↔
      ∃ b u, Gives (call name (frame.value parameterName)) (log ++ [.enter none]) b u ∧
        u ++ [.exit b name] = log' ∧ .ofBool b = y := by
  have here : frame.segment? parameter = none := rfl
  simp only [callOn, eval, parameter, pure_bind, gives_bind, emit, gives_modify, gives_pure] at here ⊢
  rw [here]
  constructor
  · rintro ⟨_, _, rfl, b, u, ran, _, _, rfl, same, rfl⟩
    exact ⟨b, u, ran, rfl, same⟩
  · rintro ⟨b, u, ran, rfl, same⟩
    exact ⟨(), _, rfl, b, u, ran, (), _, rfl, same, rfl⟩

section
variable {names : List String} {events : String → List Event}
  (rejects : ∀ name ∈ names, ∀ log,
    Gives (call name (frame.value parameterName)) log false (log ++ events name))
include rejects

theorem gives_callOn_of_mem {name : String} (inside : name ∈ names) (log : List Event) :
    Gives ((callOn name).eval Observer.log call frame) log (.ofBool false)
      (log ++ Event.visit false name (events name)) :=
  gives_callOn.2 ⟨false, _, rejects name inside _, by simp [Event.visit], rfl⟩

/-- Alternatives that all reject are visited one after the other. -/
theorem gives_evalOr_callOn (log : List Event) :
    Gives (evalOr Observer.log call frame (names.map callOn)) log false
      (log ++ names.flatMap fun name => Event.visit false name (events name)) := by
  induction names generalizing log with
  | nil => exact gives_pure.2 ⟨rfl, (List.append_nil log).symm⟩
  | cons name rest ih =>
    have others := ih (fun other inside => rejects other (List.mem_cons_of_mem _ inside))
      (log ++ Event.visit false name (events name))
    rw [List.append_assoc] at others
    exact gives_bind.2 ⟨_, _, gives_callOn_of_mem rejects List.mem_cons_self log, others⟩

theorem gives_anyOf_callOn (log : List Event) :
    Gives ((anyOf (names.map callOn)).eval Observer.log call frame) log (.ofBool false)
      (log ++ names.flatMap fun name => Event.visit false name (events name)) := by
  have all : Gives ((or (names.map callOn)).eval Observer.log call frame) log (.ofBool false)
      (log ++ names.flatMap fun name => Event.visit false name (events name)) :=
    gives_bind.2 ⟨false, _, gives_evalOr_callOn rejects log, gives_pure.2 ⟨rfl, rfl⟩⟩
  match names with
  | [] | _ :: _ :: _ => exact all
  | [name] =>
    rw [List.flatMap_singleton]
    exact gives_callOn_of_mem rejects List.mem_cons_self log

end

end Expr

namespace Validator

variable {v : Validator} {depth : Nat} {name : String} {x : Located}

/-- A predicate that asks for one of several others rejects if they do, and visits them in order. -/
theorem gives_alternatives {p : Predicate} {names : List String} {events : String → List Event}
    (found : v.predicate? name = some p) (parameter : p.parameter = Expr.parameterName)
    (body : p.body = [.result (.anyOf (names.map Expr.callOn))]) (silent : p.reason = none)
    (rejects : ∀ other ∈ names, Gives (v.invoke Observer.log depth other x) [] false (events other)) :
    Gives (v.invoke Observer.log (depth + 1) name x) [] false
      (names.flatMap fun other => Event.visit false other (events other)) := by
  have argument : (Frame.start p x).value Expr.parameterName = x := by
    simp [Frame.start, Frame.value, parameter]
  rw [invoke_succ, found]
  refine (Predicate.gives_run_result body silent).2 ⟨_, Expr.gives_anyOf_callOn (fun other inside log => ?_) [], rfl⟩
  have shifted : Gives (v.invoke Observer.log depth other x) log false ((events other).foldl Observer.log log) :=
    gives_of_log (rejects other inside) log
  rwa [foldl_log, ← argument] at shifted

/-- A predicate of a part that may be absent rejects what the predicate of the part rejects. -/
theorem exists_of_gives_optional {p : Predicate} {inner : String} {events : List Event}
    (found : v.predicate? name = some p) (parameter : p.parameter = Expr.parameterName)
    (body : p.body = [.result (.or [.strictEq .parameter .undefined, .callOn inner])]) (silent : p.reason = none)
    (rejects : Gives (v.invoke Observer.log depth name x) [] false events) :
    ∃ depth inside, Gives (v.invoke Observer.log depth inner x) [] false inside ∧
      events = Event.visit false inner inside := by
  cases depth with
  | zero => exact absurd rejects v.not_gives_invoke_zero
  | succ depth =>
    have argument : (Frame.start p x).value Expr.parameterName = x := by
      simp [Frame.start, Frame.value, parameter]
    rw [invoke_succ, found] at rejects
    obtain ⟨y, ran, rejected⟩ := (Predicate.gives_run_result body silent).1 rejects
    obtain ⟨b, u, alternatives, rest⟩ := gives_bind.1 ran
    obtain ⟨rfl, rfl⟩ := gives_pure.1 rest
    obtain rfl : b = false := rejected
    obtain ⟨y, u, compared, -, alternatives⟩ := Expr.gives_evalOr_cons alternatives
    -- nothing happens where a value is compared with `undefined`
    obtain ⟨-, rfl⟩ := gives_pure.1 compared
    obtain ⟨y, u, visited, called, last⟩ := Expr.gives_evalOr_cons alternatives
    obtain ⟨-, rfl⟩ := gives_pure.1 last
    obtain ⟨b, log, inside, rfl, rfl⟩ := Expr.gives_callOn.1 visited
    obtain rfl : b = false := called
    rw [argument] at inside
    obtain ⟨events, alone, rfl⟩ := exists_log_of_gives inside
    exact ⟨depth, events, alone, rfl⟩

end Validator

end ShapeCheck
