import ShapeCheck.Compile.Composite
import ShapeCheck.Proofs.Evaluation.Decisions
import ShapeCheck.Proofs.Meaning.Predicates
import ShapeCheck.Proofs.Naming.Spellings
import ShapeCheck.Proofs.Reports.Parts

set_option autoImplicit false

/-! # Honest diagnoses

A recorded failure claims something about a part of the value: that a leaf check fails there, that
there is a key that is not allowed, or that a predicate rejects the part. A diagnosis is honest if it
stands at the part that is being checked and what it has recorded is true (`Diagnosis.Honest`).

A `Visit` is a predicate at work on a part, with calls that are honest themselves. The rules here say
which expressions and statements keep a diagnosis honest during a visit. Events come from calls and
from the loop over superfluous keys only, so there is one rule for calls on parts
(`Visit.keeps_call`), one for calls on what is not there (`Visit.keeps_call_missing`), one for that
loop (`Visit.keeps_exactKeys`), and all other expressions are quiet.
-/

namespace ShapeCheck

/-! ## True failures -/

/-- The value is what the reason asks for. -/
def Reason.holds (reason : Reason) (v : Value) : Bool :=
  match reason, v with
  | .string, .string _ | .number, .number _ | .boolean, .bool _ | .bigint, .bigint _ => true
  | .null, .null | .undefined, .undefined => true
  | .stringLiteral text, .string s => s == text
  | .numberLiteral x, .number y => y.equals x
  | .booleanLiteral a, .bool b => b == a
  | .nonPrimitive, .function _ | .nonPrimitive, .array _ | .nonPrimitive, .object _ => true
  | .nonPrimitive, .buffer _ | .nonPrimitive, .view _ _ => true
  | _, _ => false

/-- The predicate of this name rejects the value when this many calls may be nested. -/
def Validator.Rejects (v : Validator) (depth : Nat) (name : String) (x : Located) : Prop :=
  Gives (v.invoke Observer.silent depth name x) () false ()

/-- What the failure says of the whole value is true. -/
inductive Failure.IsTrue (v : Validator) (depth : Nat) (whole : Located) : Failure → Prop
  /-- The path leads to a part that is not what the reason asks for. -/
  | ofReason {path : Path} {part : Located} {reason : Reason} :
      whole.follow? path = some part → reason.holds part.value = false →
      IsTrue v depth whole (.ofReason path reason)
  /-- The path leads to a part with this key, which a predicate that rejects the part does not
  allow. -/
  | superfluousKey {path : Path} {part : Located} {key : String} {p : Predicate}
      {allowed : List String} :
      whole.follow? path = some part → key ∈ part.value.keys → p ∈ v.predicates →
      exactKeysLoop allowed ∈ p.body → key ∉ allowed → v.Rejects depth p.name part →
      IsTrue v depth whole (.superfluousKey path key)
  /-- The path leads to a part that the predicate of this name rejects. -/
  | mismatch {path : Path} {part : Located} {name : String} :
      whole.follow? path = some part → v.Rejects depth name part →
      IsTrue v depth whole (.mismatch path name)

/-- The path of a true failure leads to a part. Behind a key that is not allowed this is so unless the
keys are those of an array. -/
theorem Failure.IsTrue.path_cases {v : Validator} {depth : Nat} {whole : Located} {failure : Failure}
    (h : failure.IsTrue v depth whole) :
    (∃ part, whole.follow? failure.path = some part) ∨
      ∃ path key part, failure.path = path ++ [.key key] ∧ whole.follow? path = some part ∧
        part.value.isArray = true ∧ key ∈ part.value.keys := by
  cases h with
  | ofReason leads => exact .inl ⟨_, leads⟩
  | mismatch leads => exact .inl ⟨_, leads⟩
  | @superfluousKey path part key _ _ leads own =>
    cases value : part.value with
    | array items => exact .inr ⟨path, key, part, rfl, leads, by rw [value]; rfl, own⟩
    | object entries =>
      have present : part.value.hasKey key = true := by
        rw [value] at own ⊢
        exact Value.hasKey_of_mem_keys own
      refine .inl ⟨part.get key, ?_⟩
      show whole.follow? (path ++ [.key key]) = _
      rw [Located.follow?_append, leads]
      simp only [Option.bind_some, Located.follow?, Located.step?_key value present]
    | _ => simp [value, Value.keys] at own

/-! ## Honest diagnoses -/

namespace Diagnosis

/-- The diagnosis stands at the part that the path leads to, and if it holds a failure, this failure
is true. -/
def Honest (v : Validator) (depth : Nat) (whole : Located) (path : Path) (steps : List Bool)
    (d : Diagnosis) : Prop :=
  d.StandsAt path steps ∧ ∀ failure, d.failure = some failure → failure.IsTrue v depth whole

section
variable {v : Validator} {depth : Nat} {whole : Located} {path : Path} {steps : List Bool}
  {d d' : Diagnosis}

theorem Honest.record (h : d.Honest v depth whole path steps) {failure : Failure}
    (holds : failure.IsTrue v depth whole) : (d.record failure).Honest v depth whole path steps := by
  refine ⟨standsAt_record _ h.1, fun failure' found => ?_⟩
  cases earlier : d.failure with
  | none =>
    obtain rfl : failure = failure' := by simpa [Diagnosis.record, earlier] using found
    exact holds
  | some first =>
    obtain rfl : first = failure' := by simpa [Diagnosis.record, earlier] using found
    exact h.2 first earlier

theorem failure_forgive {failure : Failure} (h : d.forgive.failure = some failure) :
    d.failure = some failure := by
  unfold forgive at h
  split at h
  · split at h
    · cases h
    · exact h
  · exact h

theorem failure_leave : d.leave.failure = d.failure := by
  unfold leave
  split <;> rfl

theorem path_enter (segment : Option Segment) :
    (observe d (.enter segment)).path = d.path ++ segment.toList := by
  cases segment <;> simp [observe]

/-- A predicate that is entered and left keeps a diagnosis honest if its verdict is true. -/
theorem keeps_bracket {m : Run Diagnosis Bool} {segment : Option Segment} {name : String}
    (inside : ∀ steps, Keeps (Honest v depth whole (path ++ segment.toList) steps) m
      fun passed => passed = false →
        (Failure.mismatch (path ++ segment.toList) name).IsTrue v depth whole) :
    Keeps (Honest v depth whole path steps) (do
      emit observe (.enter segment)
      let passed ← m
      emit observe (.exit passed name)
      return passed) fun _ => True := by
  intro d passed d' outcome honest
  obtain ⟨_, _, entered, outcome⟩ := gives_bind.1 outcome
  obtain rfl := gives_modify.1 entered
  obtain ⟨result, between, ran, outcome⟩ := gives_bind.1 outcome
  obtain ⟨_, _, left, outcome⟩ := gives_bind.1 outcome
  obtain rfl := gives_modify.1 left
  obtain ⟨rfl, rfl⟩ := gives_pure.1 outcome
  have at' : (observe d (.enter segment)).path = path ++ segment.toList := by
    rw [path_enter, honest.1.1]
  have before : (observe d (.enter segment)).Honest v depth whole (path ++ segment.toList)
      (observe d (.enter segment)).steps := by
    refine ⟨⟨at', rfl⟩, fun failure found => honest.2 failure ?_⟩
    cases segment <;> exact found
  obtain ⟨after, verdict⟩ := inside _ _ _ _ ran before
  refine ⟨⟨standsAt_exit segment result name honest.1 ?_, fun failure found => ?_⟩, trivial⟩
  · rw [at']
    exact after.1
  · rw [observe, failure_leave] at found
    cases result with
    | true => exact after.2 failure (failure_forgive found)
    | false =>
      rw [if_neg Bool.false_ne_true, after.1.1] at found
      exact (after.record (verdict rfl)).2 failure found

end

end Diagnosis

/-! ## Quiet expressions -/

section
variable {σ α : Type} {I : σ → Prop} {observe : Observer σ}
  {call : String → Located → Run σ Bool} {frame : Frame}

/-- What an evaluation yields it also yields in states with an invariant. -/
theorem Keeps.also {m : Run σ α} {Q Q' : α → Prop} (h : Keeps I m Q) (h' : Yields m Q') :
    Keeps I m fun a => Q a ∧ Q' a := by
  intro s a t outcome holds
  obtain ⟨after, good⟩ := h s a t outcome holds
  exact ⟨after, good, (h' s a t outcome trivial).2⟩

namespace Expr

/-- The form of the expression tells no event of its own. -/
def isQuietNode : Expr → Bool
  | .oneOf _ _ | .call _ _ | .inlined _ _ _ _ => false
  | _ => true

/-- No part of the expression tells an event. -/
def IsQuiet (e : Expr) : Prop := ∀ part ∈ e.nodes, part.isQuietNode = true

theorem isQuiet_iff {e : Expr} :
    e.IsQuiet ↔ e.isQuietNode = true ∧ ∀ a ∈ e.operands, a.IsQuiet := by
  unfold IsQuiet
  rw [nodes_eq]
  simp only [List.mem_cons, List.mem_flatMap]
  constructor
  · exact fun h => ⟨h e (.inl rfl), fun a ha part inside => h part (.inr ⟨a, ha, inside⟩)⟩
  · rintro ⟨here, below⟩ part (rfl | ⟨a, ha, inside⟩)
    · exact here
    · exact below a ha part inside

variable {es es' : List Expr} {e : Expr} {P : Prop}

theorem keeps_evalAnd (h : ∀ e ∈ es, Keeps I (e.eval observe call frame) fun _ => True) :
    Keeps I (evalAnd observe call frame es) fun _ => True := by
  induction es with
  | nil => exact .pure trivial
  | cons e rest ih =>
    simp only [evalAnd]
    refine (h e (by simp)).bind fun v _ => ?_
    split
    · exact ih fun a ha => h a (by simp [ha])
    · exact .pure trivial

theorem keeps_evalOr (h : ∀ e ∈ es, Keeps I (e.eval observe call frame) fun _ => True) :
    Keeps I (evalOr observe call frame es) fun _ => True := by
  induction es with
  | nil => exact .pure trivial
  | cons e rest ih =>
    simp only [evalOr]
    refine (h e (by simp)).bind fun v _ => ?_
    split
    · exact .pure trivial
    · exact ih fun a ha => h a (by simp [ha])

/-- The second half of a conjunction may rely on the first one, and what follows the conjunction may
rely on it as well. -/
theorem keeps_evalAnd_append (h : Keeps I (evalAnd observe call frame es) fun _ => True)
    (tests : AllTest observe call frame es P)
    (h' : P → Keeps I (evalAnd observe call frame es') fun _ => True) :
    Keeps I (evalAnd observe call frame (es ++ es')) fun b => b = true → P := by
  rw [evalAnd_append]
  refine (h.also tests).bind fun b told => ?_
  split
  · have holds := told.2.1 ‹_›
    exact (h' holds).mono fun _ _ _ => holds
  · exact .pure nofun

/-- The second operand of a conjunction may rely on the first one. -/
theorem keeps_evalAnd_pair {e' : Expr} (h : Keeps I (e.eval observe call frame) fun _ => True)
    (tests : e.Tests observe call frame P)
    (h' : P → Keeps I (e'.eval observe call frame) fun _ => True) :
    Keeps I (evalAnd observe call frame [e, e']) fun _ => True := by
  simp only [evalAnd]
  refine (h.also tests).bind fun v told => ?_
  split
  · rename_i truthy
    exact (h' (told.2.1 truthy)).bind fun _ _ => by split <;> exact .pure trivial
  · exact .pure trivial

/-- The second operand of a disjunction may rely on that the first one fails. -/
theorem keeps_evalOr_pair {e' : Expr} (h : Keeps I (e.eval observe call frame) fun _ => True)
    (tests : e.Tests observe call frame P)
    (h' : ¬ P → Keeps I (e'.eval observe call frame) fun _ => True) :
    Keeps I (evalOr observe call frame [e, e']) fun _ => True := by
  simp only [evalOr]
  refine (h.also tests).bind fun v told => ?_
  split
  · exact .pure trivial
  · rename_i falsy
    exact (h' fun holds => falsy (told.2.2 holds)).bind fun _ _ => by split <;> exact .pure trivial

theorem keeps_and_of (h : Keeps I (evalAnd observe call frame es) fun b => b = true → P) :
    Keeps I ((and es).eval observe call frame) fun v => v.value.isTruthy = true → P := by
  simp only [eval]
  exact h.bind fun _ holds => .pure holds

theorem keeps_and (h : Keeps I (evalAnd observe call frame es) fun _ => True) :
    Keeps I ((and es).eval observe call frame) fun _ => True := by
  simp only [eval]
  exact h.bind fun _ _ => .pure trivial

theorem keeps_or (h : Keeps I (evalOr observe call frame es) fun _ => True) :
    Keeps I ((or es).eval observe call frame) fun _ => True := by
  simp only [eval]
  exact h.bind fun _ _ => .pure trivial

/-- Quiet expressions keep everything. -/
theorem IsQuiet.keeps (quiet : e.IsQuiet) :
    ∀ frame, Keeps I (e.eval observe call frame) fun _ => True := by
  induction e using operandInduction with
  | step e ih =>
    intro frame
    obtain ⟨here, below⟩ := isQuiet_iff.1 quiet
    have parts (a : Expr) (ha : a ∈ e.operands) : Keeps I (a.eval observe call frame) fun _ => True :=
      ih a ha (below a ha) frame
    cases e with
    | var | undefined | null | bool | number | string =>
      simp only [eval]
      exact .pure trivial
    | and es => exact keeps_and (keeps_evalAnd parts)
    | or es => exact keeps_or (keeps_evalOr parts)
    | typeOf | not | member | length | constructorName | isArray | isBuffer | isView =>
      simp only [eval]
      exact (parts _ (by simp [operands])).bind fun _ _ => .pure trivial
    | strictEq | strictNe | compare | index | hasKey =>
      simp only [eval]
      exact (parts _ (by simp [operands])).bind fun _ _ =>
        (parts _ (by simp [operands])).bind fun _ _ => .pure trivial
    | oneOf | call | inlined => simp [isQuietNode] at here

end Expr

/-! ## Statements -/

namespace Stmt

variable {e : Expr} {stmt : Stmt} {rest : List Stmt} {P : Prop}

theorem keeps_result (h : Keeps I (e.eval observe call frame) fun _ => True) :
    Keeps I (execAll observe call frame [.result e]) fun _ => True := by
  simp only [execAll, exec, bind_assoc, pure_bind]
  exact h.bind fun _ _ => .pure trivial

/-- What follows a statement may rely on what it lets pass. -/
theorem keeps_cons (h : Keeps I (exec observe call frame stmt) fun result => result = none → P)
    (h' : P → Keeps I (execAll observe call frame rest) fun _ => True) :
    Keeps I (execAll observe call frame (stmt :: rest)) fun _ => True := by
  simp only [execAll]
  refine h.bind fun result passed => ?_
  cases result with
  | some result => exact .pure trivial
  | none => exact h' (passed rfl)

theorem keeps_rejectUnless
    (h : Keeps I (e.eval observe call frame) fun v => v.value.isTruthy = true → P) :
    Keeps I (exec observe call frame (rejectUnless e)) fun result => result = none → P := by
  simp only [rejectUnless, exec, Expr.eval, bind_assoc, pure_bind]
  refine h.bind fun v holds => ?_
  split
  · simp only [execAll, exec, Expr.eval, pure_bind]
    exact .pure (by rintro ⟨⟩)
  · rename_i passed
    refine .pure fun _ => holds ?_
    simpa [Located.ofBool, Located.computed, Value.isTruthy] using passed

theorem keeps_firstResult {γ : Type} {run : γ → Run σ (Option Bool)} {items : List γ}
    (h : ∀ a ∈ items, Keeps I (run a) fun _ => True) :
    Keeps I (firstResult run items) fun _ => True := by
  induction items with
  | nil => exact .pure trivial
  | cons a rest ih =>
    simp only [firstResult]
    refine (h a (by simp)).bind fun result _ => ?_
    cases result with
    | some result => exact .pure trivial
    | none => exact ih fun b inside => h b (by simp [inside])

end Stmt

end

/-! ## Visits -/

/-- A part of a value that a predicate works on, with calls that keep diagnoses honest and reject only
what the predicate of the name rejects. Calls for an optional part accept at once what is not there. -/
structure Visit (arena : Arena) where
  validator : Validator
  depth : Nat
  whole : Located
  path : Path
  part : Located
  call : String → Located → Run Diagnosis Bool
  leads : whole.follow? path = some part
  data : part.value.IsData
  honest : ∀ path steps name x, whole.follow? path = some x →
    Keeps (Diagnosis.Honest validator depth whole path steps) (call name x) fun _ => True
  rejects : ∀ name x d d', Gives (call name x) d false d' → validator.Rejects depth name x
  missing : ∀ inner s passed t, arena.IsSpelling inner →
    Gives (call (optionalName inner) (.computed .undefined)) s passed t → passed = true ∧ t = s

namespace Visit

variable {arena : Arena} (visit : Visit arena) {steps : List Bool}

/-- The diagnosis stands at the part that is visited, and what it says is true. -/
abbrev Honest (steps : List Bool) : Diagnosis → Prop :=
  Diagnosis.Honest visit.validator visit.depth visit.whole visit.path steps

/-- The frame of a compiled predicate that works on the part. -/
abbrev frame : Frame := Frame.ofValue visit.part

/-- The expression is evaluated honestly. -/
abbrev KeepsExpr (steps : List Bool) (frame : Frame) (e : Expr) : Prop :=
  Keeps (visit.Honest steps) (e.eval Diagnosis.observe visit.call frame) fun _ => True

/-- A call is honest if what happens between entering and leaving the predicate is. -/
theorem keeps_bracketed {frame : Frame} {a : Expr} {x : Located} {name : String}
    (reads : a.Reads Diagnosis.observe visit.call frame x)
    (inside : ∀ steps, Keeps (Diagnosis.Honest visit.validator visit.depth visit.whole
      (visit.path ++ (frame.segment? a).toList) steps) (visit.call name x)
        fun passed => passed = false →
          (Failure.mismatch (visit.path ++ (frame.segment? a).toList) name).IsTrue visit.validator
            visit.depth visit.whole) :
    visit.KeepsExpr steps frame (.call name a) := by
  have around : Keeps (visit.Honest steps) (do
      emit Diagnosis.observe (.enter (frame.segment? a))
      let passed ← visit.call name x
      emit Diagnosis.observe (.exit passed name)
      return passed) fun _ => True := Diagnosis.keeps_bracket inside
  have whole : Keeps (visit.Honest steps) _ fun _ => True :=
    around.bind fun passed _ => .pure (a := Located.ofBool passed) trivial
  simp only [bind_assoc, pure_bind] at whole
  unfold Expr.Reads at reads
  simpa only [KeepsExpr, Expr.eval, reads, pure_bind] using whole

/-- A predicate may be called on the part itself, or on a part of it one step away. -/
theorem keeps_call {frame : Frame} {a : Expr} {x : Located} {name : String}
    (reads : a.Reads Diagnosis.observe visit.call frame x)
    (leads : visit.part.follow? (frame.segment? a).toList = some x) :
    visit.KeepsExpr steps frame (.call name a) := by
  have there : visit.whole.follow? (visit.path ++ (frame.segment? a).toList) = some x := by
    rw [Located.follow?_append, visit.leads]
    exact leads
  refine visit.keeps_bracketed reads fun steps d passed d' outcome honest => ?_
  refine ⟨(visit.honest _ steps name x there d passed d' outcome honest).1, ?_⟩
  rintro rfl
  exact .mismatch there (visit.rejects name x d d' outcome)

/-- The predicate of an optional part may be called on what is not there. -/
theorem keeps_call_missing {frame : Frame} {a : Expr} {inner : String}
    (spelled : arena.IsSpelling inner)
    (reads : a.Reads Diagnosis.observe visit.call frame (.computed .undefined)) :
    visit.KeepsExpr steps frame (.call (optionalName inner) a) := by
  refine visit.keeps_bracketed reads fun steps d passed d' outcome honest => ?_
  obtain ⟨rfl, rfl⟩ := visit.missing inner d passed d' spelled outcome
  exact ⟨honest, nofun⟩

theorem keeps_callOn (name : String) : visit.KeepsExpr steps visit.frame (.callOn name) :=
  visit.keeps_call Expr.reads_parameter rfl

/-! ## Members -/

/-- A member of an object that is there may be checked. -/
theorem keeps_call_member {key name : String} {entries : List (String × Value)}
    (object : visit.part.value = .object entries) (present : visit.part.value.hasKey key = true) :
    visit.KeepsExpr steps visit.frame (.call name (.member .parameter key)) := by
  refine visit.keeps_call (Expr.reads_member key Expr.reads_parameter) ?_
  show visit.part.follow? [.key key] = _
  simp only [Located.follow?, Located.step?_key object present, Option.bind_some]

section
variable {items : List Value} (array : visit.part.value = .array items) {i : Nat}
include array

theorem length_lt : items.length < 2 ^ 53 := by
  have data := visit.data
  rw [array] at data
  cases data with
  | array short => exact short

/-- A position of an array that is there may be checked. -/
theorem keeps_call_position {name : String} (inside : i < items.length) :
    visit.KeepsExpr steps visit.frame (.call name (.index .parameter (.number (Double.ofNat i)))) := by
  have small : i < 2 ^ 53 := inside.trans (visit.length_lt array)
  refine visit.keeps_call (Expr.reads_index Expr.reads_parameter (Expr.reads_number _)) ?_
  show visit.part.follow? [.ofNumber (Double.ofNat i)] = _
  rw [Located.segment_position small]
  simp only [Located.follow?, Located.step?_index array inside small, Option.bind_some]
  rfl

/-- A position of an array that is not there may be checked as an optional part. -/
theorem keeps_call_outside {inner : String} (spelled : arena.IsSpelling inner)
    (outside : items.length ≤ i) :
    visit.KeepsExpr steps visit.frame
      (.call (optionalName inner) (.index .parameter (.number (Double.ofNat i)))) := by
  refine visit.keeps_call_missing spelled ?_
  rw [← Located.getKeyOf_of_length_le array (visit.length_lt array) outside]
  exact Expr.reads_index Expr.reads_parameter (Expr.reads_number _)

end

/-! ## Loops -/

/-- The step to the member that a loop is at. -/
theorem segment?_element (x : Located) (binder : String) (key : Value) :
    ((Frame.ofValue x).bind binder (.computed key)).segment? (.index .parameter (.var binder)) =
      match key with
      | .number n => some (.ofNumber n)
      | .string name => some (.key name)
      | _ => none := by
  cases key <;> simp [Frame.segment?, Frame.isSubject, Frame.keySegment?, Frame.value, Frame.bind,
    Frame.ofValue, Expr.parameter, Expr.varName?, Located.computed]

/-- The member that a loop is at may be checked if there is a step to it. -/
theorem keeps_memberCheck {binder name : String} (other : binder ≠ Expr.parameterName) {key : Value}
    (leads : visit.part.follow? ((visit.frame.bind binder (.computed key)).segment?
      (.index .parameter (.var binder))).toList = some (visit.part.getKeyOf key)) :
    Keeps (visit.Honest steps) (Stmt.execAll Diagnosis.observe visit.call
      (visit.frame.bind binder (.computed key)) [memberCheck name binder]) fun _ => True := by
  have called : visit.KeepsExpr steps (visit.frame.bind binder (.computed key))
      (.call name (.index .parameter (.var binder))) :=
    visit.keeps_call (Expr.reads_element other key) leads
  exact Stmt.keeps_cons (P := True)
    (Stmt.keeps_rejectUnless (called.mono fun _ _ _ => trivial)) fun _ => .pure trivial

/-- The loop over the items of an array. -/
theorem keeps_items {items : List Value} (array : visit.part.value = .array items)
    (name : String) :
    Keeps (visit.Honest steps) (Stmt.exec Diagnosis.observe visit.call visit.frame
      (.forIndex Expr.indexName .parameter [memberCheck name Expr.indexName])) fun _ => True := by
  have whole : Expr.Reads Diagnosis.observe visit.call visit.frame .parameter visit.part :=
    Expr.reads_parameter
  unfold Expr.Reads at whole
  simp only [Stmt.exec, whole, pure_bind]
  refine Stmt.keeps_firstResult fun i listed => visit.keeps_memberCheck (by decide) ?_
  have inside : i < items.length := by simpa [array, Value.length?] using listed
  have small : i < 2 ^ 53 := inside.trans (visit.length_lt array)
  rw [segment?_element]
  show visit.part.follow? [.ofNumber (Double.ofNat i)] = _
  rw [Located.segment_position small]
  simp only [Located.follow?, Located.step?_index array inside small, Option.bind_some]

/-- The loop over the entries of an object. -/
theorem keeps_entries {entries : List (String × Value)} (object : visit.part.value = .object entries)
    (name : String) :
    Keeps (visit.Honest steps) (Stmt.exec Diagnosis.observe visit.call visit.frame
      (.forKeys Expr.keyName .parameter [memberCheck name Expr.keyName])) fun _ => True := by
  have whole : Expr.Reads Diagnosis.observe visit.call visit.frame .parameter visit.part :=
    Expr.reads_parameter
  unfold Expr.Reads at whole
  simp only [Stmt.exec, whole, pure_bind]
  refine Stmt.keeps_firstResult fun key listed => visit.keeps_memberCheck (by decide) ?_
  have present : visit.part.value.hasKey key = true := by
    rw [object] at listed ⊢
    exact Value.hasKey_of_mem_keys listed
  rw [segment?_element]
  show visit.part.follow? [.key key] = _
  simp only [Located.follow?, Located.step?_key object present, Option.bind_some]
  rfl

/-! ## Superfluous keys -/

/-- A key is passed over in silence, or told and rejected. -/
theorem execAll_oneOf (key : String) (allowed : List String) :
    Stmt.execAll Diagnosis.observe visit.call
        (visit.frame.bind Expr.keyName (.computed (.string key)))
        [.rejectUnless (.oneOf (.var Expr.keyName) allowed)] =
      if key ∈ allowed then pure none
      else do
        emit Diagnosis.observe (.superfluousKey key)
        return some false := by
  have bound : (visit.frame.bind Expr.keyName ⟨.string key, []⟩).value Expr.keyName =
      ⟨.string key, []⟩ := by
    simp [Frame.value, Frame.bind]
  by_cases listed : key ∈ allowed <;>
    simp [Stmt.execAll, Stmt.rejectUnless, Stmt.exec, Expr.eval, bound, Located.computed,
      Located.ofBool, Value.isTruthy, Value.keyText, listed]

/-- The loop over superfluous keys lets the part pass without an event, or rejects it for a key that
is not allowed. -/
theorem exactKeysLoop_outcome {allowed : List String} {d d' : Diagnosis} {result : Option Bool}
    (h : Gives (Stmt.exec Diagnosis.observe visit.call visit.frame (exactKeysLoop allowed)) d result d') :
    (result = none ∧ d' = d) ∨ ∃ key ∈ visit.part.value.keys, key ∉ allowed ∧ result = some false ∧
      d' = d.record (.superfluousKey d.path key) := by
  have whole : Expr.Reads Diagnosis.observe visit.call visit.frame .parameter visit.part :=
    Expr.reads_parameter
  unfold Expr.Reads at whole
  simp only [exactKeysLoop, Stmt.exec, whole, pure_bind, execAll_oneOf] at h
  generalize visit.part.value.keys = keys at h ⊢
  induction keys with
  | nil =>
    obtain ⟨rfl, rfl⟩ := gives_pure.1 h
    exact .inl ⟨rfl, rfl⟩
  | cons key rest ih =>
    rw [firstResult] at h
    by_cases listed : key ∈ allowed
    · rw [if_pos listed, pure_bind] at h
      refine (ih h).imp_right ?_
      rintro ⟨other, inside, told⟩
      exact ⟨other, List.mem_cons_of_mem _ inside, told⟩
    · rw [if_neg listed] at h
      simp only [bind_assoc, pure_bind] at h
      obtain ⟨_, _, told, h⟩ := gives_bind.1 h
      obtain rfl := gives_modify.1 told
      obtain ⟨rfl, rfl⟩ := gives_pure.1 h
      exact .inr ⟨key, List.mem_cons_self, listed, rfl, rfl⟩

/-- The predicate of this name, which has this body, is the one at work: where its body does not
accept the part, it rejects the part. -/
structure Runs (name : String) (stmts : List Stmt) : Prop where
  listed : ∃ p ∈ visit.validator.predicates, p.name = name ∧ p.body = stmts
  rejects : ∀ d result d', Gives (Stmt.execAll Diagnosis.observe visit.call visit.frame stmts) d
    result d' → result.getD false = false →
      visit.validator.Rejects visit.depth name visit.part

/-- The loop over superfluous keys, behind a statement that does not tell any. -/
theorem keeps_exactKeys {name : String} {first : Stmt} {allowed : List String}
    (runs : visit.Runs name [first, exactKeysLoop allowed, .result (.bool true)])
    (before : Keeps (visit.Honest steps) (Stmt.exec Diagnosis.observe visit.call visit.frame first)
      fun _ => True) :
    Keeps (visit.Honest steps) (Stmt.execAll Diagnosis.observe visit.call visit.frame
      [first, exactKeysLoop allowed, .result (.bool true)]) fun _ => True := by
  intro d result d' outcome honest
  have whole := outcome
  rw [Stmt.execAll] at outcome
  obtain ⟨result₁, d₁, ran₁, outcome⟩ := gives_bind.1 outcome
  obtain ⟨honest₁, -⟩ := before _ _ _ ran₁ honest
  cases result₁ with
  | some decided =>
    obtain ⟨-, rfl⟩ := gives_pure.1 outcome
    exact ⟨honest₁, trivial⟩
  | none =>
    rw [Stmt.execAll] at outcome
    obtain ⟨result₂, d₂, ran₂, last⟩ := gives_bind.1 outcome
    obtain ⟨rfl, rfl⟩ | ⟨key, own, foreign, rfl, rfl⟩ := visit.exactKeysLoop_outcome ran₂
    · have quiet : (Expr.bool true).IsQuiet := by simp [Expr.IsQuiet, Expr.nodes, Expr.isQuietNode]
      exact Stmt.keeps_result (quiet.keeps visit.frame) _ _ _ last honest₁
    · obtain ⟨rfl, rfl⟩ := gives_pure.1 last
      obtain ⟨p, inside, rfl, body⟩ := runs.listed
      refine ⟨honest₁.record ?_, trivial⟩
      rw [honest₁.1.1]
      exact .superfluousKey visit.leads own inside (by simp [body]) foreign
        (runs.rejects _ _ _ whole rfl)

end Visit

end ShapeCheck
