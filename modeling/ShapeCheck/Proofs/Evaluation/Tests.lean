import ShapeCheck.Proofs.Evaluation.Refinement
import ShapeCheck.Proofs.Keeps

set_option autoImplicit false

/-! # What evaluations test

Which property of a value does an expression test? The rules here read it off, operator by operator
and statement by statement, for any property that the calls of other predicates test. An evaluation
may halt; the rules speak of those that do not.

Main facts: `Expr.allTest_map` and `Expr.someTest_map` (conjunctions and disjunctions),
`Stmt.guards_forIndex` and `Stmt.guards_forKeys` (loops) and `Predicate.yields_run`.
-/

namespace ShapeCheck

section
variable {σ : Type}

/-- All results of the evaluation have the property. -/
abbrev Yields {α : Type} (m : Run σ α) (Q : α → Prop) : Prop := Keeps (fun _ => True) m Q

variable {observe : Observer σ} {call : String → Located → Run σ Bool} {frame : Frame}

theorem yields_emit (event : Event) : Yields (emit observe event) fun _ => True :=
  .update fun _ _ => trivial

theorem yields_explain (reason : Option Reason) (passed : Bool) :
    Yields (explain observe reason passed) fun _ => True := by
  cases reason <;> cases passed <;> first
    | exact .pure trivial
    | exact yields_emit _

/-! ## Values -/

namespace Located

theorem get_value (x : Located) (key : String) : (x.get key).value = x.value.get key := by
  unfold Located.get Value.get
  cases x.value.part? key with
  | none => rfl
  | some part => rfl

theorem getIndex_value (x : Located) (position : Double) :
    (x.getIndex position).value = x.value.getIndex position := by
  obtain ⟨value, place⟩ := x
  cases value with
  | array items =>
    unfold Value.getIndex getIndex
    dsimp only [Located.whole]
    split
    · cases items[position.toPosition]? <;> rfl
    · rw [get_value, get_value]
  | buffer bytes =>
    unfold Value.getIndex getIndex
    dsimp only [Located.whole]
    split
    · cases bytes[position.toPosition]? <;> rfl
    · rw [get_value, get_value]
  | _ =>
    unfold Value.getIndex getIndex
    dsimp only [Located.whole]
    rw [get_value, get_value]

/-- Strict equality with a value that has no identity is equality of primitives. -/
theorem strictEquals_computed (x : Located) {v : Value} (h : v.isReference = false) :
    x.strictEquals (.computed v) = x.value.primitiveEquals v := by
  unfold strictEquals
  split
  · rename_i own
    have other : (computed v).value.isReference = false := h
    rw [other, Bool.false_and]
    cases value : x.value <;> simp_all [Value.isReference, Value.primitiveEquals]
  · rfl

end Located

/-! ## Reading -/

namespace Expr

/-- The value of the expression is known without an event. -/
def Reads (observe : Observer σ) (call : String → Located → Run σ Bool) (frame : Frame) (e : Expr)
    (x : Located) : Prop := e.eval observe call frame = pure x

section
variable {x y : Located} {e a b : Expr}

theorem reads_var (name : String) : Reads observe call frame (.var name) (frame.value name) := rfl

theorem reads_member (key : String) (h : Reads observe call frame e x) :
    Reads observe call frame (.member e key) (x.get key) := by
  unfold Reads at h ⊢
  simp only [eval, h, pure_bind]

theorem reads_index (h : Reads observe call frame a x) (h' : Reads observe call frame b y) :
    Reads observe call frame (.index a b) (x.getKeyOf y.value) := by
  unfold Reads at h h' ⊢
  simp only [eval, h, h', pure_bind]

theorem reads_number (n : Double) :
    Reads observe call frame (.number n) (.computed (.number n)) := rfl

theorem reads_bool (b : Bool) : Reads observe call frame (.bool b) (.computed (.bool b)) := rfl

/-! ## Tests -/

/-- The truth of the expression tests a property. -/
def Tests (observe : Observer σ) (call : String → Located → Run σ Bool) (frame : Frame) (e : Expr)
    (P : Prop) : Prop :=
  Yields (e.eval observe call frame) fun x => x.value.isTruthy = true ↔ P

variable {P Q : Prop}

theorem Tests.congr (h : Tests observe call frame e P) (same : P ↔ Q) :
    Tests observe call frame e Q :=
  h.mono fun _ tests => tests.trans same

theorem tests_bool (b : Bool) : Tests observe call frame (.bool b) (b = true) := .pure Iff.rfl

theorem tests_strictEq (h : Reads observe call frame a x) (h' : Reads observe call frame b y) :
    Tests observe call frame (.strictEq a b) (x.strictEquals y = true) := by
  unfold Reads at h h'
  simp only [Tests, eval, h, h', pure_bind]
  exact .pure Iff.rfl

theorem tests_strictNe (h : Reads observe call frame a x) (h' : Reads observe call frame b y) :
    Tests observe call frame (.strictNe a b) (x.strictEquals y = false) := by
  unfold Reads at h h'
  simp only [Tests, eval, h, h', pure_bind]
  exact .pure (by simp [Located.ofBool, Located.computed, Value.isTruthy])

theorem tests_typeOfIs (tag : String) (h : Reads observe call frame a x) :
    Tests observe call frame (typeOfIs a tag) (x.value.typeOf = tag) := by
  unfold Reads at h
  simp only [Tests, typeOfIs, eval, h, pure_bind]
  refine .pure ?_
  simp [Located.ofBool, Located.computed, Value.isTruthy, Located.strictEquals, Value.isReference,
    Value.primitiveEquals]

theorem tests_not (h : Tests observe call frame e P) : Tests observe call frame (.not e) (¬ P) := by
  simp only [Tests, eval]
  refine Keeps.bind h fun v tests => .pure ?_
  rw [← tests]
  simp [Located.ofBool, Located.computed, Value.isTruthy]

theorem tests_compare (order : Comparison) (h : Reads observe call frame a x)
    (h' : Reads observe call frame b y) :
    Tests observe call frame (.compare order a b) (order.holds x.value y.value = true) := by
  unfold Reads at h h'
  simp only [Tests, eval, h, h', pure_bind]
  exact .pure Iff.rfl

theorem tests_hasName (key : String) (h : Reads observe call frame a x) :
    Tests observe call frame (hasName key a) (x.value.hasKey key = true) := by
  unfold Reads at h
  simp only [Tests, hasName, eval, h, pure_bind]
  exact .pure Iff.rfl

theorem reads_length (h : Reads observe call frame a x) : Reads observe call frame (.length a)
    (.computed (x.value.length?.elim .undefined fun n => .number (Double.ofNat n))) := by
  unfold Reads at h ⊢
  simp only [eval, h, pure_bind]

theorem reads_constructorName (h : Reads observe call frame a x) :
    Reads observe call frame (.constructorName a)
      (.computed (x.value.constructorName?.elim .undefined .string)) := by
  unfold Reads at h ⊢
  simp only [eval, h, pure_bind]

theorem reads_string (text : String) :
    Reads observe call frame (.string text) (.computed (.string text)) := rfl

theorem tests_isArray (h : Reads observe call frame a x) :
    Tests observe call frame (.isArray a) (x.value.isArray = true) := by
  unfold Reads at h
  simp only [Tests, eval, h, pure_bind]
  exact .pure Iff.rfl

theorem tests_isBuffer (h : Reads observe call frame a x) :
    Tests observe call frame (.isBuffer a) (x.value.isBuffer = true) := by
  unfold Reads at h
  simp only [Tests, eval, h, pure_bind]
  exact .pure Iff.rfl

theorem tests_isView (h : Reads observe call frame a x) :
    Tests observe call frame (.isView a) (x.value.isView = true) := by
  unfold Reads at h
  simp only [Tests, eval, h, pure_bind]
  exact .pure Iff.rfl

theorem tests_oneOf {key : String} (keys : List String)
    (h : Reads observe call frame a (.computed (.string key))) :
    Tests observe call frame (.oneOf a keys) (key ∈ keys) := by
  unfold Reads at h
  have found : (Located.ofBool (keys.contains key)).value.isTruthy = true ↔ key ∈ keys := by
    simp [Located.ofBool, Located.computed, Value.isTruthy]
  simp only [Tests, eval, h, pure_bind, Located.computed]
  split
  · exact (yields_emit _).bind fun _ _ => .pure found
  · exact .pure found

theorem tests_call {f : String} (h : Reads observe call frame a x)
    (called : Yields (call f x) fun b => b = true ↔ P) :
    Tests observe call frame (.call f a) P := by
  unfold Reads at h
  simp only [Tests, eval, h, pure_bind]
  refine (yields_emit _).bind fun _ _ => called.bind fun passed tests => ?_
  exact (yields_emit _).bind fun _ _ => .pure tests

/-! ## Conjunctions and disjunctions -/

/-- The expressions, one after the other, test a property: that of a conjunction of them. -/
def AllTest (observe : Observer σ) (call : String → Located → Run σ Bool) (frame : Frame)
    (es : List Expr) (P : Prop) : Prop :=
  Yields (evalAnd observe call frame es) fun b => b = true ↔ P

/-- The expressions, one after the other, test a property: that of a disjunction of them. -/
def SomeTest (observe : Observer σ) (call : String → Located → Run σ Bool) (frame : Frame)
    (es : List Expr) (P : Prop) : Prop :=
  Yields (evalOr observe call frame es) fun b => b = true ↔ P

variable {es es' : List Expr}

theorem tests_and (h : AllTest observe call frame es P) : Tests observe call frame (.and es) P := by
  simp only [Tests, eval]
  exact Keeps.bind h fun _ tests => .pure tests

theorem tests_or (h : SomeTest observe call frame es P) : Tests observe call frame (.or es) P := by
  simp only [Tests, eval]
  exact Keeps.bind h fun _ tests => .pure tests

theorem allTest_nil : AllTest observe call frame [] True := .pure (by simp)

theorem someTest_nil : SomeTest observe call frame [] False := .pure (by simp)

/-- Later operands are tested only if the first one passes, so they may rely on it. -/
theorem allTest_cons_of (h : Tests observe call frame e P)
    (h' : P → AllTest observe call frame es Q) :
    AllTest observe call frame (e :: es) (P ∧ Q) := by
  simp only [AllTest, evalAnd]
  refine Keeps.bind h fun v tests => ?_
  split
  · rename_i truthy
    exact Keeps.mono (h' (tests.1 truthy)) fun b rest => by rw [rest, and_iff_right (tests.1 truthy)]
  · rename_i falsy
    exact .pure (by simpa using fun holds => absurd (tests.2 holds) falsy)

theorem allTest_cons (h : Tests observe call frame e P) (h' : AllTest observe call frame es Q) :
    AllTest observe call frame (e :: es) (P ∧ Q) :=
  allTest_cons_of h fun _ => h'

theorem someTest_cons (h : Tests observe call frame e P) (h' : SomeTest observe call frame es Q) :
    SomeTest observe call frame (e :: es) (P ∨ Q) := by
  simp only [SomeTest, evalOr]
  refine Keeps.bind h fun v tests => ?_
  split
  · rename_i truthy
    exact .pure (by simpa using Or.inl (tests.1 truthy))
  · rename_i falsy
    exact Keeps.mono h' fun b rest => by
      rw [rest, or_iff_right fun holds => falsy (tests.2 holds)]

/-- The second half of a conjunction is looked at if the first one passes. -/
theorem evalAnd_append (es es' : List Expr) : evalAnd observe call frame (es ++ es') = (do
    if ← evalAnd observe call frame es then evalAnd observe call frame es' else return false) := by
  induction es with
  | nil => simp [evalAnd]
  | cons e rest ih =>
    simp only [List.cons_append, evalAnd, bind_assoc]
    congr 1
    funext v
    split
    · exact ih
    · simp

theorem allTest_append (h : AllTest observe call frame es P)
    (h' : AllTest observe call frame es' Q) : AllTest observe call frame (es ++ es') (P ∧ Q) := by
  rw [AllTest, evalAnd_append]
  refine Keeps.bind h fun b tests => ?_
  cases b with
  | true => exact Keeps.mono h' fun b rest => by rw [rest, and_iff_right (tests.1 rfl)]
  | false => exact .pure (by simpa using fun holds => absurd (tests.2 holds) (by simp))

/-- A conjunction over some items. -/
theorem allTest_map {α : Type} {items : List α} {f : α → Expr} {P : α → Prop}
    (h : ∀ a ∈ items, Tests observe call frame (f a) (P a)) :
    AllTest observe call frame (items.map f) (∀ a ∈ items, P a) := by
  induction items with
  | nil => exact Keeps.mono allTest_nil fun _ tests => tests.trans (by simp)
  | cons a rest ih =>
    have below := ih fun b inside => h b (by simp [inside])
    exact Keeps.mono (allTest_cons (h a (by simp)) below) fun _ tests => tests.trans (by simp)

/-- A conjunction over some items, with any number of operands for each. -/
theorem allTest_flatten {α : Type} {items : List α} {lists : List (List Expr)} {P : α → Prop}
    (h : List.Forall₂ (fun a es => AllTest observe call frame es (P a)) items lists) :
    AllTest observe call frame lists.flatten (∀ a ∈ items, P a) := by
  induction h with
  | nil => exact Keeps.mono allTest_nil fun _ tests => tests.trans (by simp)
  | cons here _ ih =>
    exact Keeps.mono (allTest_append here ih) fun _ tests => tests.trans (by simp)

/-- A disjunction over some items. -/
theorem someTest_map {α : Type} {items : List α} {f : α → Expr} {P : α → Prop}
    (h : ∀ a ∈ items, Tests observe call frame (f a) (P a)) :
    SomeTest observe call frame (items.map f) (∃ a ∈ items, P a) := by
  induction items with
  | nil => exact Keeps.mono someTest_nil fun _ tests => tests.trans (by simp)
  | cons a rest ih =>
    have below := ih fun b inside => h b (by simp [inside])
    exact Keeps.mono (someTest_cons (h a (by simp)) below) fun _ tests => tests.trans (by simp)

/-- A disjunction in which a single operand stands for itself. -/
theorem tests_anyOf (h : SomeTest observe call frame es P) :
    Tests observe call frame (anyOf es) P := by
  unfold anyOf
  split
  · rename_i e
    simp only [SomeTest, evalOr] at h
    intro s v t outcome _
    refine ⟨trivial, ?_⟩
    cases truthy : v.value.isTruthy with
    | true =>
      have result : Gives (do
          let v ← e.eval observe call frame
          if v.value.isTruthy then return true else return false) s true t :=
        gives_bind.2 ⟨v, t, outcome, by simp [truthy]⟩
      simpa [truthy] using (h s true t result trivial).2
    | false =>
      have result : Gives (do
          let v ← e.eval observe call frame
          if v.value.isTruthy then return true else return false) s false t :=
        gives_bind.2 ⟨v, t, outcome, by simp [truthy]⟩
      simpa [truthy] using (h s false t result trivial).2
  · exact tests_or h

end

end Expr

/-! ## Statements -/

namespace Stmt

variable {P Q : Prop} {e : Expr} {stmt : Stmt} {stmts rest : List Stmt}

/-- The result of a statement that lets pass what has the property and rejects what has not. -/
def Guarded (P : Prop) (result : Option Bool) : Prop :=
  (result = none ∧ P) ∨ (result = some false ∧ ¬ P)

/-- The statement rejects unless the property holds, and otherwise goes on. -/
def Guards (observe : Observer σ) (call : String → Located → Run σ Bool) (frame : Frame)
    (stmt : Stmt) (P : Prop) : Prop :=
  Yields (exec observe call frame stmt) (Guarded P)

/-- The statements accept if the property holds, and otherwise reject. -/
def Decide (observe : Observer σ) (call : String → Located → Run σ Bool) (frame : Frame)
    (stmts : List Stmt) (P : Prop) : Prop :=
  Yields (execAll observe call frame stmts) fun result => result.getD false = true ↔ P

theorem Decide.congr (h : Decide observe call frame stmts P) (same : P ↔ Q) :
    Decide observe call frame stmts Q :=
  h.mono fun _ decides => decides.trans same

theorem Guards.congr (h : Guards observe call frame stmt P) (same : P ↔ Q) :
    Guards observe call frame stmt Q :=
  h.mono fun _ guarded => guarded.imp (.imp_right same.1) (.imp_right fun no yes => no (same.2 yes))

theorem decide_result (h : e.Tests observe call frame P) :
    Decide observe call frame [.result e] P := by
  simp only [Decide, execAll, exec, bind_assoc, pure_bind]
  exact Keeps.bind h fun v tests => .pure tests

/-- Guards are tests in front of what follows. -/
theorem decide_cons (h : Guards observe call frame stmt P) (h' : Decide observe call frame rest Q) :
    Decide observe call frame (stmt :: rest) (P ∧ Q) := by
  simp only [Decide, execAll]
  refine Keeps.bind h ?_
  rintro result (⟨rfl, holds⟩ | ⟨rfl, fails⟩)
  · exact Keeps.mono h' fun _ decides => by rw [decides, and_iff_right holds]
  · exact .pure (by simp [fails])

/-- Values with the property are accepted at once. -/
theorem decide_accept (h : e.Tests observe call frame P) (h' : Decide observe call frame rest Q) :
    Decide observe call frame (.ifThen e [.result (.bool true)] :: rest) (P ∨ Q) := by
  simp only [Decide, execAll, exec, bind_assoc]
  refine Keeps.bind h fun v tests => ?_
  split
  · rename_i truthy
    simp only [Expr.eval, pure_bind]
    exact .pure (by simp [Located.ofBool, Located.computed, Value.isTruthy, tests.1 truthy])
  · rename_i falsy
    simp only [pure_bind]
    exact Keeps.mono h' fun _ decides => by
      rw [decides, or_iff_right fun holds => falsy (tests.2 holds)]

theorem guards_rejectUnless (h : e.Tests observe call frame P) :
    Guards observe call frame (rejectUnless e) P := by
  simp only [Guards, rejectUnless, exec]
  refine Keeps.bind (Expr.tests_not h) fun v tests => ?_
  split
  · rename_i truthy
    simp only [execAll, exec, Expr.eval, pure_bind]
    exact .pure (.inr ⟨rfl, tests.1 truthy⟩)
  · rename_i falsy
    exact .pure (.inl ⟨rfl, by_contra fun no => falsy (tests.2 no)⟩)

/-! ## Loops -/

theorem yields_firstResult {α : Type} {run : α → Run σ (Option Bool)} {items : List α}
    {P : α → Prop} (h : ∀ a ∈ items, Yields (run a) (Guarded (P a))) :
    Yields (firstResult run items) (Guarded (∀ a ∈ items, P a)) := by
  induction items with
  | nil => exact .pure (.inl ⟨rfl, by simp⟩)
  | cons a rest ih =>
    simp only [firstResult]
    refine (h a (by simp)).bind ?_
    rintro result (⟨rfl, holds⟩ | ⟨rfl, fails⟩)
    · refine (ih fun b inside => h b (by simp [inside])).mono fun _ guarded => ?_
      simpa [Guarded, holds] using guarded
    · exact .pure (.inr ⟨rfl, fun all => fails (all a (by simp))⟩)

theorem yields_execAll_singleton {R : Option Bool → Prop}
    (h : Yields (exec observe call frame stmt) R) :
    Yields (execAll observe call frame [stmt]) R := by
  simp only [execAll]
  refine h.bind fun result holds => ?_
  cases result <;> exact .pure holds

/-- A loop over the positions of a value. -/
theorem guards_forIndex {x : Located} {binder : String} {whole : Expr} {P : Nat → Prop}
    (read : whole.Reads observe call frame x)
    (h : ∀ i < x.value.length?.getD 0,
      Guards observe call (frame.bind binder (.computed (.number (Double.ofNat i)))) stmt (P i)) :
    Guards observe call frame (.forIndex binder whole [stmt])
      (∀ i < x.value.length?.getD 0, P i) := by
  unfold Expr.Reads at read
  simp only [Guards, exec, read, pure_bind]
  refine (yields_firstResult fun i inside => yields_execAll_singleton (h i ?_)).mono
    fun _ guarded => ?_
  · exact List.mem_range.1 inside
  · simpa only [List.mem_range] using guarded

/-- A loop over the keys of a value. -/
theorem guards_forKeys {x : Located} {binder : String} {whole : Expr} {P : String → Prop}
    (read : whole.Reads observe call frame x)
    (h : ∀ key ∈ x.value.keys,
      Guards observe call (frame.bind binder (.computed (.string key))) stmt (P key)) :
    Guards observe call frame (.forKeys binder whole [stmt]) (∀ key ∈ x.value.keys, P key) := by
  unfold Expr.Reads at read
  simp only [Guards, exec, read, pure_bind]
  exact yields_firstResult fun key inside => yields_execAll_singleton (h key inside)

end Stmt

/-! ## Predicates -/

theorem Predicate.yields_run {p : Predicate} {x : Located} {P : Prop}
    (h : Stmt.Decide observe call (Frame.start p x) p.body P) :
    Yields (p.run observe call x) fun b => b = true ↔ P := by
  rw [run_eq]
  refine Keeps.bind h fun result decides => ?_
  exact (yields_explain _ _).bind fun _ _ => .pure decides

end

end ShapeCheck
