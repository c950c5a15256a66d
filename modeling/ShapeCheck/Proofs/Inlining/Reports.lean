import ShapeCheck.Proofs.Compilation.Stages
import ShapeCheck.Proofs.Compilation.Tidy
import ShapeCheck.Proofs.Evaluation.Observers
import ShapeCheck.Proofs.Inlining.Rounds
import ShapeCheck.Validation.Diagnosis

set_option autoImplicit false

/-! # Inlining keeps reports

Rounds over tidy predicates keep all events, whoever observes them (`Predicate.inlinable_tidy`).
Compiled predicates are tidy, so a compiled validator reports the same failure whether its trivial
predicates have been written out or not: `Arena.check_compile_inlined`.
-/

namespace ShapeCheck

/-! ## Rounds over tidy predicates -/

namespace Stmt

mutual

theorem exprs_mapExprs (change : Expr → Expr) (stmt : Stmt) :
    (mapExprs change stmt).exprs = stmt.exprs.map change := by
  cases stmt with
  | result e => rfl
  | ifThen e body | forIndex x e body | forKeys x e body =>
    simp [mapExprs, exprs, exprsOfAll_mapAllExprs change body]

theorem exprsOfAll_mapAllExprs (change : Expr → Expr) (stmts : List Stmt) :
    exprsOfAll (mapAllExprs change stmts) = (exprsOfAll stmts).map change := by
  cases stmts with
  | nil => rfl
  | cons stmt rest =>
    simp [mapAllExprs, exprsOfAll, exprs_mapExprs change stmt, exprsOfAll_mapAllExprs change rest]

end

end Stmt

namespace Predicate

theorem areTidy_trivialBodies {predicates : List Predicate} (tidy : ∀ p ∈ predicates, p.IsTidy) :
    AreTidy (trivialBodies predicates) := by
  intro f callee known
  obtain ⟨p, inside, _, found⟩ := lookup_trivialBodies known
  obtain ⟨body, parameter, -, -, -⟩ := trivialBody?_eq_some found
  refine ⟨(tidy p inside).exprs callee.expr ?_, parameter.trans (tidy p inside).parameter⟩
  simp [body, Stmt.exprsOfAll, Stmt.exprs]

/-- A round keeps a predicate tidy. -/
theorem IsTidy.inlineRound {p : Predicate} (h : p.IsTidy) {trivial : List (String × TrivialBody)}
    (areTrivial : AreTrivial trivial) (areTidy : AreTidy trivial) :
    (p.inlineRound trivial).IsTidy where
  parameter := h.parameter
  exprs e inside := by
    rw [Predicate.inlineRound, Stmt.exprsOfAll_mapAllExprs] at inside
    obtain ⟨e', listed, rfl⟩ := List.mem_map.1 inside
    exact e'.isTidy_inlineCalls areTrivial areTidy (h.exprs e' listed)

/-- Rounds keep the events of tidy predicates. -/
theorem inlinable_tidy {σ : Type} (observe : Observer σ) :
    Inlinable observe fun predicates =>
      (predicates.map name).Nodup ∧ ∀ p ∈ predicates, p.IsTidy where
  distinct _ good := good.1
  round predicates good := by
    refine ⟨by rw [names_round]; exact good.1, fun q inside => ?_⟩
    obtain ⟨p, listed, rfl⟩ := List.mem_map.1 inside
    exact (good.2 p listed).inlineRound (areTrivial_trivialBodies predicates)
      (areTidy_trivialBodies good.2)
  refines predicates good call call' serves p inside e listed frame _ :=
    Expr.inlineCalls_refines_of_isTidy (areTrivial_trivialBodies predicates)
      (areTidy_trivialBodies good.2) serves ((good.2 p inside).exprs e listed) frame

end Predicate

/-! ## Reports -/

namespace Validator

/-- Where evaluation does not halt, the report is the one of the diagnosis at its end. -/
theorem check_eq_of_gives {v w : Validator} {value : Value} {b : Bool} {d : Diagnosis}
    (sameRoot : v.root = w.root)
    (h : Gives (v.evaluateWithin Diagnosis.observe maxCallDepth value) .start b d)
    (h' : Gives (w.evaluateWithin Diagnosis.observe maxCallDepth value) .start b d) :
    w.check value = v.check value := by
  have left : v.evaluate Diagnosis.observe .start value = (.ok b, d) := h
  have right : w.evaluate Diagnosis.observe .start value = (.ok b, d) := h'
  unfold check
  rw [left, right, sameRoot]

end Validator

namespace Arena

variable {arena : Arena} {type : TypeId} {options : CompileOptions}

/-- The predicates of a compilation are tidy, and their names are different. -/
theorem good_of_compileRoot {root : String} {registry : Registry}
    (made : Gives ((Context.root arena options).compileRoot type) .empty root registry) :
    (registry.predicates.map Predicate.name).Nodup ∧ ∀ p ∈ registry.predicates, p.IsTidy := by
  have holds := (compileRoot_tidy _ type _ _ _ made Registry.holds_empty).1
  exact ⟨holds.distinct_predicates, fun p inside => holds.good inside⟩

/-- A type that compiles does so with and without its trivial predicates written out, and on every
value that the predicates without that decide the reports are the same. -/
theorem check_compile_inlined {u : Validator} (made : arena.compile type options = .ok u) :
    ∃ v w, arena.compile type { options with inlineTrivialPredicates := false } = .ok v ∧
      arena.compile type { options with inlineTrivialPredicates := true } = .ok w ∧
        ∀ value b, v.verdict value = .ok b → w.check value = v.check value := by
  obtain ⟨v, off, on⟩ := compile_withInlining made
  let w : Validator := { v.inlined with
    options := { options with inlineTrivialPredicates := true } }
  refine ⟨v, w, off, on, fun value b decided => ?_⟩
  have good : (v.predicates.map Predicate.name).Nodup ∧ ∀ p ∈ v.predicates, p.IsTidy := by
    obtain ⟨root, registry, outcome, rfl⟩ := compile_eq_ok.1 off
    exact good_of_compileRoot outcome
  have result := (v.evaluate_fst Diagnosis.observe .start value).trans decided
  rcases evaluated : v.evaluate Diagnosis.observe .start value with ⟨_, d⟩
  rw [evaluated] at result
  obtain rfl := result
  have refined := Validator.evaluateWithin_inlined_refines
    (Predicate.inlinable_tidy Diagnosis.observe) good maxCallDepth value _ _ _ evaluated
  rw [Validator.evaluateWithin_congr (v := v.inlined) (w := w) rfl rfl] at refined
  exact Validator.check_eq_of_gives rfl evaluated refined

end Arena

/-- An object with a text under one key. -/
def textBox : TypeId × Arena :=
  Arena.initial.intern (.object ⟨[⟨"a", some (.ofKeyword .string), false, false, false⟩], none⟩)

theorem check_compile_inlined_textBox :
    ∃ v w, textBox.2.compile textBox.1 { inlineTrivialPredicates := false } = .ok v ∧
      textBox.2.compile textBox.1 { inlineTrivialPredicates := true } = .ok w ∧
        v.verdict (.object [("a", .null)]) = .ok false ∧
          w.check (.object [("a", .null)]) = v.check (.object [("a", .null)]) := by
  have rejects : (do
      let v ← (textBox.2.compile textBox.1 { inlineTrivialPredicates := false }).toOption
      (v.verdict (.object [("a", .null)])).toOption) = some false := by decide +kernel
  obtain ⟨u, made, decided⟩ := Option.bind_eq_some_iff.1 rejects
  rw [toOption_eq_some] at made decided
  obtain ⟨v, w, off, on, same⟩ := Arena.check_compile_inlined made
  obtain rfl := Except.ok.inj (made.symm.trans off)
  exact ⟨u, w, off, on, decided, same _ _ decided⟩

end ShapeCheck
