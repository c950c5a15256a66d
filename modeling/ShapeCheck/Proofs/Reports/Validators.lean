import ShapeCheck.Proofs.Inlining.Reversal
import ShapeCheck.Proofs.Reports.Strategies

set_option autoImplicit false

/-! # Reports are true

A validator of honest predicates keeps diagnoses honest, by induction on the calls that may be nested:
the calls of a visit are calls with one level less. At the root this says that the failure of a
rejected value is true. Compiled validators consist of honest predicates, and one with its trivial
predicates written out reports what the one without reports.

Main fact: `Arena.isTrue_of_check_compile`.
-/

namespace ShapeCheck

namespace Diagnosis

variable {v : Validator} {depth : Nat} {whole : Located} {path : Path} {steps : List Bool}

/-- A reason that is told is true if the part is not what it asks for. -/
theorem keeps_explain {reason : Option Reason} {passed : Bool}
    (h : ∀ asked, reason = some asked → passed = false →
      (Failure.ofReason path asked).IsTrue v depth whole) :
    Keeps (Honest v depth whole path steps) (explain observe reason passed) fun _ => True := by
  cases reason with
  | none => exact .pure trivial
  | some asked =>
    cases passed with
    | true => exact .pure trivial
    | false =>
      refine Keeps.update fun d honest => honest.record ?_
      rw [honest.1.1]
      exact h asked rfl rfl

end Diagnosis

/-- A predicate has a result as soon as its body ends. -/
theorem Predicate.exists_gives_run {σ : Type} {observe : Observer σ}
    {call : String → Located → Run σ Bool} {p : Predicate} {x : Located} {s t : σ}
    {result : Option Bool}
    (h : Gives (Stmt.execAll observe call (Frame.start p x) p.body) s result t) :
    ∃ u, Gives (p.run observe call x) s (result.getD false) u := by
  obtain ⟨u, told⟩ : ∃ u, Gives (explain observe p.reason (result.getD false)) t () u := by
    cases p.reason <;> cases result.getD false <;> exact ⟨_, rfl⟩
  refine ⟨u, ?_⟩
  rw [run_eq]
  exact gives_bind.2 ⟨result, t, h, gives_bind.2 ⟨(), u, told, gives_pure.2 ⟨rfl, rfl⟩⟩⟩

/-! ## Calls -/

namespace Validator

variable {arena : Arena} {v : Validator} {limit : Nat}

/-- What a diagnosis sees rejected is rejected. -/
theorem rejects_of_gives {depth : Nat} {name : String} {x : Located} {d d' : Diagnosis}
    (below : depth ≤ limit) (h : Gives (v.invoke Diagnosis.observe depth name x) d false d') :
    v.Rejects limit name x := by
  have same : ((v.invoke Diagnosis.observe depth name x).run.run d).1 =
      ((v.invoke Observer.silent depth name x).run.run ()).1 := v.invoke_fst _ depth name x d
  rw [show (v.invoke Diagnosis.observe depth name x).run.run d = (.ok false, d') from h] at same
  have silent : Gives (v.invoke Observer.silent depth name x) () false () := Prod.ext same.symm rfl
  exact v.invoke_mono below name x _ _ _ silent

variable (honest : ∀ p ∈ v.predicates, p.IsHonest arena)
include honest

/-- The predicate of an optional part accepts at once what is not there. -/
theorem accepts_missing {inner : String} (spelled : arena.IsSpelling inner) {depth : Nat}
    {d d' : Diagnosis} {passed : Bool}
    (h : Gives (v.invoke Diagnosis.observe depth (optionalName inner) (.computed .undefined)) d passed
      d') : passed = true ∧ d' = d := by
  cases depth with
  | zero => exact absurd h v.not_gives_invoke_zero
  | succ depth =>
    rw [invoke_succ] at h
    cases found : v.predicate? (optionalName inner) with
    | none =>
      rw [found] at h
      exact absurd h gives_throw
    | some p =>
      obtain ⟨inside, named⟩ := predicate?_eq_some found
      have body := (honest p inside).optional inner spelled named
      have parameter := (honest p inside).parameter
      have accepted : p.run Diagnosis.observe (v.invoke Diagnosis.observe depth)
          (.computed .undefined) = pure true := by
        have result : Stmt.execAll Diagnosis.observe (v.invoke Diagnosis.observe depth)
            (Frame.ofValue (.computed .undefined))
            [.result (.or [.strictEq .parameter .undefined, .callOn inner])] = pure (some true) := rfl
        rw [Predicate.run_eq, Frame.start, parameter, body]
        show (do
          let result ← Stmt.execAll Diagnosis.observe _ (Frame.ofValue (.computed .undefined)) _
          explain Diagnosis.observe p.reason (result.getD false)
          return result.getD false) = _
        rw [result]
        cases p.reason <;> rfl
      rw [found] at h
      dsimp only at h
      rw [accepted] at h
      obtain ⟨rfl, rfl⟩ := gives_pure.1 h
      exact ⟨rfl, rfl⟩

/-- Calls on parts of data keep diagnoses honest. -/
theorem keeps_invoke {whole : Located} (data : whole.value.IsData) {depth : Nat}
    (below : depth ≤ limit) {path : Path} {steps : List Bool} {name : String} {x : Located}
    (leads : whole.follow? path = some x) :
    Keeps (Diagnosis.Honest v limit whole path steps) (v.invoke Diagnosis.observe depth name x)
      fun _ => True := by
  induction depth generalizing path steps name x with
  | zero => exact fun _ _ _ outcome => absurd outcome v.not_gives_invoke_zero
  | succ depth ih =>
    rw [invoke_succ]
    cases found : v.predicate? name with
    | none => exact .throw _
    | some p =>
      obtain ⟨inside, rfl⟩ := predicate?_eq_some found
      have good := honest p inside
      let visit : Visit arena :=
        { validator := v
          depth := limit
          whole
          path
          part := x
          call := v.invoke Diagnosis.observe depth
          leads
          data := Located.isData_of_follow? data leads
          honest := fun path steps name y there => ih (by omega) there
          rejects := fun name y d d' outcome => rejects_of_gives (by omega) outcome
          missing := fun inner d passed d' spelled outcome => accepts_missing honest spelled outcome }
      have frame : Frame.start p x = visit.frame := by
        rw [Frame.start, good.parameter]
        rfl
      have runs : visit.Runs p.name p.body := by
        refine ⟨⟨p, inside, rfl, rfl⟩, fun d result d' outcome rejected => ?_⟩
        rw [← frame] at outcome
        obtain ⟨u, ran⟩ := Predicate.exists_gives_run outcome
        rw [rejected] at ran
        have called : Gives (v.invoke Diagnosis.observe (depth + 1) p.name x) d false u := by
          rw [invoke_succ, found]
          exact ran
        exact rejects_of_gives below called
      have decided : Yields (Stmt.execAll Diagnosis.observe visit.call visit.frame p.body)
          fun result => ∀ reason, p.reason = some reason → result.getD false = false →
            reason.holds x.value = false := by
        rintro d result d' outcome -
        refine ⟨trivial, fun reason asked rejected => ?_⟩
        have told : result.getD false = true ↔ reason.holds x.value = true :=
          (good.reason reason asked visit.call x d result d' outcome trivial).2
        rw [← Bool.not_eq_true, ← told, rejected]
        exact Bool.false_ne_true
      show Keeps _ (p.run Diagnosis.observe visit.call x) _
      rw [Predicate.run_eq, frame]
      refine ((good.reports visit runs steps).also decided).bind fun result told => ?_
      exact (Diagnosis.keeps_explain fun reason asked rejected =>
        .ofReason leads (told.2 reason asked rejected)).bind fun _ _ => .pure trivial

/-- The failure of a value that is rejected is true. -/
theorem isTrue_of_evaluateWithin {value : Value} (data : value.IsData) {d : Diagnosis}
    (h : Gives (v.evaluateWithin Diagnosis.observe limit value) .start false d) :
    ∃ failure, d.failure = some failure ∧ failure.IsTrue v limit (.whole value) := by
  obtain ⟨failure, found⟩ := Option.isSome_iff_exists.1 ((failure_evaluateWithin h).2 rfl)
  refine ⟨failure, found, ?_⟩
  have around : Keeps (Diagnosis.Honest v limit (.whole value) [] [])
      (v.evaluateWithin Diagnosis.observe limit value) fun _ => True := by
    refine Diagnosis.keeps_bracket fun steps d passed d' outcome honest' => ?_
    refine ⟨(keeps_invoke honest data (Nat.le_refl limit) rfl d passed d' outcome honest').1, ?_⟩
    rintro rfl
    exact .mismatch rfl (rejects_of_gives (Nat.le_refl limit) outcome)
  have start : Diagnosis.start.Honest v limit (.whole value) [] [] := ⟨⟨rfl, rfl⟩, nofun⟩
  exact (around _ _ _ h start).1.2 failure found

end Validator

/-! ## Compiled validators -/

namespace Arena

variable {arena : Arena} {type : TypeId} {options : CompileOptions}

/-- The predicates of a compilation are honest. -/
theorem honest_of_compileRoot (last : arena.OptionalLast) {root : String} {registry : Registry}
    (made : Gives ((Context.root arena options).compileRoot type) .empty root registry) :
    ∀ p ∈ registry.predicates, p.IsHonest arena :=
  fun _ inside => (compileRoot_honest last options type _ _ _ made Registry.holds_empty).1.good inside

/-- What a compiled validator decides, its predicates decide as well without any written out, and a
diagnosis sees the same. -/
theorem exists_depth_of_compile {v : Validator} (made : arena.compile type options = .ok v)
    (value : Value) {b : Bool} {d : Diagnosis}
    (h : Gives (v.evaluateWithin Diagnosis.observe maxCallDepth value) .start b d) :
    ∃ w depth, arena.compile type { options with inlineTrivialPredicates := false } = .ok w ∧
      (options.inlineTrivialPredicates = false → depth = maxCallDepth) ∧
        Gives (w.evaluateWithin Diagnosis.observe depth value) .start b d := by
  obtain ⟨w, off, on⟩ := compile_withInlining made
  cases inline : options.inlineTrivialPredicates with
  | false =>
    have same : { options with inlineTrivialPredicates := false } = options := by
      rw [← inline]
    obtain rfl := Except.ok.inj (made.symm.trans (same ▸ off))
    exact ⟨v, maxCallDepth, off, fun _ => rfl, h⟩
  | true =>
    have same : { options with inlineTrivialPredicates := true } = options := by
      rw [← inline]
    have written : v = { w.inlined with options := options } :=
      Except.ok.inj (made.symm.trans (same ▸ on))
    have good : (w.predicates.map Predicate.name).Nodup ∧ ∀ p ∈ w.predicates, p.IsTidy := by
      obtain ⟨root, registry, outcome, rfl⟩ := compile_eq_ok.1 off
      exact good_of_compileRoot outcome
    have sameRoot : v.root = w.inlined.root := by rw [written]
    have samePredicates : v.predicates = w.inlined.predicates := by rw [written]
    rw [Validator.evaluateWithin_congr sameRoot samePredicates] at h
    refine ⟨w, maxCallDepth + Predicate.roundLimit w.predicates, off, fun never => ?_, ?_⟩
    · cases never
    · exact Validator.evaluateWithin_of_inlined good.1 good.2 maxCallDepth value _ _ _ h

/-- A compiled validator that rejects JSON data reports a true failure: the path leads to a part, unless
it ends in the key of an item of an array, and what the failure says of the part holds, with the
predicates as they are without inlining. -/
theorem isTrue_of_check_compile (last : arena.OptionalLast) {v : Validator}
    (made : arena.compile type options = .ok v) {json : Json} (short : json.hasShortArrays = true)
    {b : Bool} (decided : v.verdict (.ofJson json) = .ok b) {failure : Failure}
    (reported : v.check (.ofJson json) = .error failure) :
    ∃ w depth, arena.compile type { options with inlineTrivialPredicates := false } = .ok w ∧
      (options.inlineTrivialPredicates = false → depth = maxCallDepth) ∧
        failure.IsTrue w depth (.whole (.ofJson json)) ∧
          ((∃ part, (Located.whole (.ofJson json)).follow? failure.path = some part) ∨
            ∃ path key part, failure.path = path ++ [.key key] ∧
              (Located.whole (.ofJson json)).follow? path = some part ∧
                part.value.isArray = true ∧ key ∈ part.value.keys) := by
  have result := (v.evaluate_fst Diagnosis.observe .start (.ofJson json)).trans decided
  rcases evaluated : v.evaluate Diagnosis.observe .start (.ofJson json) with ⟨_, d⟩
  rw [evaluated] at result
  obtain rfl := result
  cases b with
  | true =>
    rw [Validator.check, evaluated] at reported
    cases reported
  | false =>
    obtain ⟨w, depth, off, plain, decided'⟩ := exists_depth_of_compile made (.ofJson json) evaluated
    have honest : ∀ p ∈ w.predicates, p.IsHonest arena := by
      obtain ⟨root, registry, outcome, rfl⟩ := compile_eq_ok.1 off
      exact honest_of_compileRoot last outcome
    obtain ⟨found, held, isTrue⟩ :=
      Validator.isTrue_of_evaluateWithin honest (Value.isData_ofJson json short) decided'
    obtain rfl : found = failure := by
      simpa [Validator.check, evaluated, held] using reported
    exact ⟨w, depth, off, plain, isTrue, isTrue.path_cases⟩

end Arena

/-- A number, and perhaps a text. -/
def optionalPair : TypeId × Arena :=
  Arena.initial.intern (.tuple [⟨.ofKeyword .number, false⟩, ⟨.ofKeyword .string, true⟩])

/-- A number and a truth value. -/
def mistakenPair : Json := .array [Json.ofNat 1, .bool true]

theorem isTrue_of_check_compile_optionalPair :
    optionalPair.2.OptionalLast ∧ mistakenPair.hasShortArrays = true ∧
      ∃ v, optionalPair.2.compile optionalPair.1 {} = .ok v ∧
        v.verdict (.ofJson mistakenPair) = .ok false ∧
        v.check (.ofJson mistakenPair) = .error (.ofReason [.index 1] .string) ∧
        ∃ w depth, optionalPair.2.compile optionalPair.1 { inlineTrivialPredicates := false } = .ok w ∧
          (Failure.ofReason [.index 1] .string).IsTrue w depth (.whole (.ofJson mistakenPair)) := by
  have rejects : (do
      let v ← (optionalPair.2.compile optionalPair.1 {}).toOption
      let passed ← (v.verdict (.ofJson mistakenPair)).toOption
      return (passed, decide (v.check (.ofJson mistakenPair) =
        .error (.ofReason [.index 1] .string)))) = some (false, true) := by decide +kernel
  obtain ⟨v, made, rejects⟩ := Option.bind_eq_some_iff.1 rejects
  obtain ⟨passed, decided, same⟩ := Option.bind_eq_some_iff.1 rejects
  obtain ⟨rfl, reported⟩ := Prod.mk.inj (Option.some.inj same)
  rw [toOption_eq_some] at made decided
  have reported := of_decide_eq_true reported
  have last : optionalPair.2.OptionalLast := by decide +kernel
  obtain ⟨w, depth, off, -, isTrue, -⟩ :=
    Arena.isTrue_of_check_compile last made (by decide) decided reported
  exact ⟨last, by decide, v, made, decided, reported, w, depth, off, isTrue⟩

/-- Everything that is not primitive, and by way of a definition that says the same. -/
def objectsTwice : TypeId × Arena :=
  let (named, arena) := Arena.initial.declareAlias "O" (.ofKeyword .object)
  arena.intersection [.ofKeyword .object, named]

/-- The loop over superfluous keys also runs over the items of an array, which are reported by their
keys: such a path cannot be followed, since no key leads into an array. -/
theorem exists_check_position_as_key :
    objectsTwice.2.OptionalLast ∧ ∃ v,
      objectsTwice.2.compile objectsTwice.1 { superfluousPropertyCheck := true } = .ok v ∧
        v.verdict (.ofJson (.array [.string "x"])) = .ok false ∧
        v.check (.ofJson (.array [.string "x"])) = .error (.superfluousKey [] "0") ∧
        (Failure.superfluousKey [] "0").path = [.key "0"] ∧
        (Located.whole (.ofJson (.array [.string "x"]))).follow? [.key "0"] = none := by
  have rejects : (do
      let v ← (objectsTwice.2.compile objectsTwice.1 { superfluousPropertyCheck := true }).toOption
      let passed ← (v.verdict (.ofJson (.array [.string "x"]))).toOption
      return (passed, decide (v.check (.ofJson (.array [.string "x"])) =
        .error (.superfluousKey [] "0")))) = some (false, true) := by decide +kernel
  obtain ⟨v, made, rejects⟩ := Option.bind_eq_some_iff.1 rejects
  obtain ⟨passed, decided, same⟩ := Option.bind_eq_some_iff.1 rejects
  obtain ⟨rfl, reported⟩ := Prod.mk.inj (Option.some.inj same)
  rw [toOption_eq_some] at made decided
  exact ⟨by decide +kernel, v, made, decided, of_decide_eq_true reported, rfl, rfl⟩

end ShapeCheck
