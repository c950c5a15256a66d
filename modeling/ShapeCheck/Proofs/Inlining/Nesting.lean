import ShapeCheck.Proofs.Inlining.Places

set_option autoImplicit false

/-! # How deep calls are nested

Writing out a call can leave more calls than before: where the callee uses its parameter twice, every
call in the argument is doubled. What falls is the depth to which calls of trivial predicates stand
in the arguments of such calls. A round takes away the outermost of them, and the copies of an
argument stand no deeper than the argument did.

Main facts: `WithinDepth.inlineCalls` (a round never nests calls deeper) and
`WithinDepth.inlineCalls_trivial` (it takes a level from the calls of trivial predicates).
-/

namespace ShapeCheck

namespace Expr

/-- Calls that count are nested in the arguments of calls that count at most this many times. -/
inductive WithinDepth (counts : String → Bool) : Nat → Expr → Prop
  | call {n : Nat} {f : String} {a : Expr} (counted : counts f = true)
      (inside : WithinDepth counts n a) : WithinDepth counts (n + 1) (.call f a)
  | plain {n : Nat} {e : Expr} (uncounted : e.callee?.any counts = false)
      (inside : ∀ a ∈ e.operands, WithinDepth counts n a) : WithinDepth counts n e

namespace WithinDepth

variable {counts : String → Bool}

/-! ## Bounds -/

theorem mono {n k : Nat} {e : Expr} (h : WithinDepth counts n e) (le : n ≤ k) :
    WithinDepth counts k e := by
  induction h generalizing k with
  | call counted _ ih =>
    obtain ⟨k, rfl⟩ : ∃ k', k = k' + 1 := ⟨k - 1, by omega⟩
    exact .call counted (ih (by omega))
  | plain uncounted _ ih => exact .plain uncounted fun a ha => ih a ha le

/-- The fewer calls count, the less deep they are. -/
theorem of_counts {fewer : String → Bool} (less : ∀ f, fewer f = true → counts f = true) {n : Nat}
    {e : Expr} (h : WithinDepth counts n e) : WithinDepth fewer n e := by
  induction h with
  | @call n f a _ _ ih =>
    by_cases counted : fewer f = true
    · exact .call counted ih
    · refine .plain (by simpa [callee?] using counted) fun b hb => ?_
      obtain rfl : b = a := by simpa [operands] using hb
      exact ih.mono (Nat.le_succ _)
  | @plain n e uncounted _ ih =>
    refine .plain ?_ ih
    cases called : e.callee? with
    | none => rfl
    | some f =>
      simp only [called, Option.any_some] at uncounted ⊢
      exact Bool.eq_false_iff.2 fun counted => by simp [less f counted] at uncounted

/-- What stands in an expression is nested no deeper than the expression. -/
theorem of_operand {n : Nat} {e a : Expr} (h : WithinDepth counts n e) (ha : a ∈ e.operands) :
    WithinDepth counts n a := by
  cases h with
  | call _ inside =>
    obtain rfl := List.mem_singleton.1 ha
    exact inside.mono (Nat.le_succ _)
  | plain _ inside => exact inside a ha

/-- The argument of a call that counts has a level less. -/
theorem of_call {n : Nat} {f : String} {a : Expr} (h : WithinDepth counts n (.call f a))
    (counted : counts f = true) : ∃ k, n = k + 1 ∧ WithinDepth counts k a := by
  cases h with
  | call _ inside => exact ⟨_, rfl, inside⟩
  | plain uncounted _ => simp [callee?, counted] at uncounted

/-- An expression without levels is without calls that count. -/
theorem calls_of_zero {e : Expr} (h : WithinDepth counts 0 e) :
    ∀ part ∈ e.nodes, part.callee?.any counts = false := by
  induction e using operandInduction with
  | step e ih =>
    intro part inside
    rw [nodes_eq] at inside
    rcases List.mem_cons.1 inside with rfl | below
    · cases h with
      | plain uncounted _ => exact uncounted
    · obtain ⟨a, ha, inside⟩ := List.mem_flatMap.1 below
      exact ih a ha (h.of_operand ha) part inside

/-! ## The forms of an expression -/

theorem uncountedCall {n : Nat} {f : String} {a : Expr} (uncounted : counts f = false)
    (h : WithinDepth counts n a) : WithinDepth counts n (.call f a) := by
  refine .plain (by simpa [callee?] using uncounted) fun b hb => ?_
  obtain rfl := List.mem_singleton.1 hb
  exact h

theorem inlined {n : Nat} {a b : Expr} (f : String) (reason : Option Reason)
    (ha : WithinDepth counts n a) (hb : WithinDepth counts n b) :
    WithinDepth counts n (.inlined f reason a b) := by
  refine .plain rfl fun c hc => ?_
  rcases List.mem_cons.1 hc with rfl | hc
  · exact ha
  · obtain rfl := List.mem_singleton.1 hc
    exact hb

theorem mapOperands {n : Nat} {e : Expr} {change : Expr → Expr} (operator : e.isOperator = true)
    (h : ∀ a ∈ e.operands, WithinDepth counts n (change a)) :
    WithinDepth counts n (e.mapOperands change) := by
  have changed : (e.mapOperands change).isOperator = true := by rwa [isOperator_mapOperands]
  refine .plain (by simp [callee?_of_operator changed]) fun b hb => ?_
  obtain ⟨a, ha, rfl⟩ := mem_operands_mapOperands.1 hb
  exact h a ha

/-! ## The depth of an expression -/

theorem callDepth_le_callDepthOfAll {e : Expr} {es : List Expr} (h : e ∈ es) :
    e.callDepth ≤ callDepthOfAll es := by
  induction es with
  | nil => cases h
  | cons e' rest ih =>
    rcases List.mem_cons.1 h with rfl | h
    · exact Nat.le_max_left _ _
    · exact Nat.le_trans (ih h) (Nat.le_max_right _ _)

theorem callDepth_operand_le {e a : Expr} (h : a ∈ e.operands) : a.callDepth ≤ e.callDepth := by
  cases e with
  | and es | or es => exact callDepth_le_callDepthOfAll h
  | call f b =>
    obtain rfl := List.mem_singleton.1 h
    exact Nat.le_succ _
  | _ => grind [operands, Expr.callDepth]

/-- The depth that bounds the number of rounds counts all calls. -/
theorem callDepth (e : Expr) : WithinDepth (fun _ => true) e.callDepth e := by
  induction e using operandInduction with
  | step e ih =>
    cases called : e.callee? with
    | none =>
      exact .plain (by simp [called]) fun a ha => (ih a ha).mono (callDepth_operand_le ha)
    | some f =>
      obtain ⟨a, rfl⟩ : ∃ a, e = .call f a := by
        cases e <;> simp_all [callee?]
      exact .call rfl (ih a (by simp [operands]))

/-! ## Rewriting -/

/-- Without calls of its own, an expression nests the calls of an argument no deeper. -/
theorem substitute {n : Nat} {argument : Expr} (h : WithinDepth counts n argument) (name : String)
    (e : Expr) : e.calls = [] → WithinDepth counts n (e.substitute name argument) := by
  induction e using operandInduction with
  | step e ih =>
    intro noCalls
    have below := ((calls_eq_nil_iff e).1 noCalls).2
    have parts (a : Expr) (ha : a ∈ e.operands) := ih a ha (below a ha)
    obtain ⟨y, rfl⟩ | ⟨f, a, rfl⟩ | ⟨f, reason, a, b, rfl⟩ | operator := e.operator_or
    · simp only [Expr.substitute]
      split
      · exact h
      · exact .plain rfl (by simp [operands])
    · simp [calls_call] at noCalls
    · exact .inlined f reason (parts a (by simp [operands])) (parts b (by simp [operands]))
    · rw [substitute_of_operator operator]
      exact .mapOperands operator parts

variable {trivial : List (String × Predicate.TrivialBody)}

/-- What is written out for a call is nested as deep as the argument. -/
theorem written {n : Nat} {a : Expr} (h : WithinDepth counts n a) (f : String)
    {callee : Predicate.TrivialBody} (noCalls : callee.expr.calls = []) :
    WithinDepth counts n
      (.inlined f callee.reason a (callee.expr.substitute callee.parameter a)) :=
  .inlined f callee.reason h (h.substitute callee.parameter callee.expr noCalls)

/-- A round never nests calls deeper, whichever of them count. -/
theorem inlineCalls (areTrivial : Predicate.AreTrivial trivial) (e : Expr) :
    ∀ n, WithinDepth counts n e → WithinDepth counts n (e.inlineCalls trivial) := by
  induction e using operandInduction with
  | step e ih =>
    intro n h
    have parts (a : Expr) (ha : a ∈ e.operands) := ih a ha n (h.of_operand ha)
    obtain ⟨y, rfl⟩ | ⟨f, a, rfl⟩ | ⟨f, reason, a, b, rfl⟩ | operator := e.operator_or
    · exact h
    · have inner : a ∈ (Expr.call f a).operands := by simp [operands]
      simp only [Expr.inlineCalls]
      cases known : trivial.lookup f with
      | some callee => exact (h.of_operand inner).written f (areTrivial f callee known).1
      | none =>
        cases h with
        | call counted inside => exact .call counted (ih a inner _ inside)
        | plain uncounted _ =>
          exact .uncountedCall (by simpa [callee?] using uncounted) (parts a inner)
    · exact .inlined f reason (parts a (by simp [operands])) (parts b (by simp [operands]))
    · rw [inlineCalls_of_operator operator]
      exact .mapOperands operator parts

/-- A round takes a level from the calls of trivial predicates. -/
theorem inlineCalls_trivial (areTrivial : Predicate.AreTrivial trivial) {n : Nat} (e : Expr) :
    WithinDepth (fun f => (trivial.lookup f).isSome) (n + 1) e →
      WithinDepth (fun f => (trivial.lookup f).isSome) n (e.inlineCalls trivial) := by
  induction e using operandInduction with
  | step e ih =>
    intro h
    have parts (a : Expr) (ha : a ∈ e.operands) := ih a ha (h.of_operand ha)
    obtain ⟨y, rfl⟩ | ⟨f, a, rfl⟩ | ⟨f, reason, a, b, rfl⟩ | operator := e.operator_or
    · exact .plain rfl (by simp [Expr.inlineCalls, operands])
    · simp only [Expr.inlineCalls]
      cases known : trivial.lookup f with
      | some callee =>
        -- the argument is a level below, and so are its copies
        obtain ⟨k, same, inside⟩ := h.of_call (by simp [known])
        obtain rfl : n = k := by omega
        exact inside.written f (areTrivial f callee known).1
      | none => exact .uncountedCall (by simp [known]) (parts a (by simp [operands]))
    · exact .inlined f reason (parts a (by simp [operands])) (parts b (by simp [operands]))
    · rw [inlineCalls_of_operator operator]
      exact .mapOperands operator parts

end WithinDepth

end Expr

end ShapeCheck
