import ShapeCheck.Predicate.Inline

set_option autoImplicit false

/-! # Expressions by their operands

Most expressions are operators: they are evaluated by evaluating their operands, and a rewriting
step goes straight on to the operands. Variables, calls and inlined calls are the others. The proofs
about rewriting and evaluation treat these three one by one and all operators at once.

Main facts: `Expr.operandInduction` (a property that passes from the operands to an expression holds
everywhere), `Expr.substitute_of_operator` and `Expr.inlineCalls_of_operator` (rewriting an operator
means rewriting its operands).
-/

namespace ShapeCheck

namespace Expr

/-- The direct parts of an expression, from left to right. -/
def operands : Expr → List Expr
  | .typeOf e | .not e | .member e _ | .length e | .constructorName e | .isArray e | .isBuffer e
  | .isView e | .oneOf e _ | .call _ e => [e]
  | .strictEq a b | .strictNe a b | .compare _ a b | .index a b | .hasKey a b
  | .inlined _ _ a b => [a, b]
  | .and es | .or es => es
  | _ => []

/-- Changes the direct parts of an expression. -/
def mapOperands (change : Expr → Expr) : Expr → Expr
  | .typeOf e => .typeOf (change e)
  | .strictEq a b => .strictEq (change a) (change b)
  | .strictNe a b => .strictNe (change a) (change b)
  | .not e => .not (change e)
  | .and es => .and (es.map change)
  | .or es => .or (es.map change)
  | .compare order a b => .compare order (change a) (change b)
  | .member e key => .member (change e) key
  | .index e key => .index (change e) (change key)
  | .hasKey key e => .hasKey (change key) (change e)
  | .length e => .length (change e)
  | .constructorName e => .constructorName (change e)
  | .isArray e => .isArray (change e)
  | .isBuffer e => .isBuffer (change e)
  | .isView e => .isView (change e)
  | .oneOf e options => .oneOf (change e) options
  | .call f e => .call f (change e)
  | .inlined f reason e body => .inlined f reason (change e) (change body)
  | e => e

/-- The value of the expression depends on nothing but the values of its operands. -/
def isOperator : Expr → Bool
  | .var _ | .call _ _ | .inlined _ _ _ _ => false
  | _ => true

theorem operator_or (e : Expr) :
    (∃ x, e = .var x) ∨ (∃ f a, e = .call f a) ∨ (∃ f r a b, e = .inlined f r a b) ∨
      e.isOperator = true := by
  cases e <;> simp [isOperator]

/-! ## Induction -/

theorem sizeOf_lt_of_operand {e a : Expr} (h : a ∈ e.operands) : sizeOf a < sizeOf e := by
  cases e with
  | and es =>
    have := List.sizeOf_lt_of_mem (show a ∈ es from h)
    simp
    omega
  | or es =>
    have := List.sizeOf_lt_of_mem (show a ∈ es from h)
    simp
    omega
  | _ =>
    simp [operands] at h <;> (try rcases h with rfl | rfl) <;> simp <;> omega

/-- A property holds of every expression if it passes from the operands to the expression. -/
theorem operandInduction {motive : Expr → Prop}
    (step : ∀ e : Expr, (∀ a ∈ e.operands, motive a) → motive e) (e : Expr) : motive e :=
  step e fun a inside =>
    have := sizeOf_lt_of_operand inside
    operandInduction step a
termination_by sizeOf e

/-! ## Parts of the operands -/

theorem nodesOfAll_eq_flatMap (es : List Expr) : nodesOfAll es = es.flatMap nodes := by
  induction es with
  | nil => rfl
  | cons e rest ih => simp [nodesOfAll, ih]

theorem nodes_eq (e : Expr) : e.nodes = e :: e.operands.flatMap nodes := by
  cases e <;> simp [nodes, operands, nodesOfAll_eq_flatMap]

theorem mem_nodes_of_operand {e a part : Expr} (ha : a ∈ e.operands) (h : part ∈ a.nodes) :
    part ∈ e.nodes := by
  rw [nodes_eq]
  exact List.mem_cons_of_mem _ (List.mem_flatMap.2 ⟨a, ha, h⟩)

theorem mem_calls_of_operand {e a : Expr} {f : String} (ha : a ∈ e.operands) (h : f ∈ a.calls) :
    f ∈ e.calls := by
  obtain ⟨part, inside, same⟩ := List.mem_filterMap.1 h
  exact List.mem_filterMap.2 ⟨part, mem_nodes_of_operand ha inside, same⟩

theorem mem_varNames_of_operand {e a : Expr} {x : String} (ha : a ∈ e.operands)
    (h : x ∈ a.varNames) : x ∈ e.varNames := by
  obtain ⟨part, inside, same⟩ := List.mem_filterMap.1 h
  exact List.mem_filterMap.2 ⟨part, mem_nodes_of_operand ha inside, same⟩

theorem calls_eq_nil_iff (e : Expr) :
    e.calls = [] ↔ e.callee? = none ∧ ∀ a ∈ e.operands, a.calls = [] := by
  simp only [calls, List.filterMap_eq_nil_iff]
  rw [nodes_eq]
  simp only [List.mem_cons, List.mem_flatMap]
  constructor
  · exact fun h => ⟨h e (.inl rfl), fun a ha part inside => h part (.inr ⟨a, ha, inside⟩)⟩
  · rintro ⟨here, below⟩ part (rfl | ⟨a, ha, inside⟩)
    · exact here
    · exact below a ha part inside

/-! ## Rewriting -/

theorem substituteAll_eq_map (es : List Expr) (name : String) (argument : Expr) :
    substituteAll es name argument = es.map (·.substitute name argument) := by
  induction es with
  | nil => rfl
  | cons e rest ih => simp [substituteAll, ih]

theorem inlineCallsInAll_eq_map (trivial : List (String × Predicate.TrivialBody))
    (es : List Expr) : inlineCallsInAll trivial es = es.map (inlineCalls trivial) := by
  induction es with
  | nil => rfl
  | cons e rest ih => simp [inlineCallsInAll, ih]

@[simp] theorem substitute_parameter (argument : Expr) :
    parameter.substitute parameterName argument = argument := by
  simp [parameter, substitute]

theorem substitute_of_operator {e : Expr} (h : e.isOperator = true) (name : String)
    (argument : Expr) :
    e.substitute name argument = e.mapOperands (·.substitute name argument) := by
  cases e <;> simp_all [isOperator, substitute, mapOperands, substituteAll_eq_map]

theorem inlineCalls_of_operator {e : Expr} (h : e.isOperator = true)
    (trivial : List (String × Predicate.TrivialBody)) :
    e.inlineCalls trivial = e.mapOperands (inlineCalls trivial) := by
  cases e <;> simp_all [isOperator, inlineCalls, mapOperands, inlineCallsInAll_eq_map]

theorem mapOperands_id (e : Expr) : e.mapOperands id = e := by
  cases e <;> simp [mapOperands]

theorem mem_operands_mapOperands {change : Expr → Expr} {e b : Expr} :
    b ∈ (e.mapOperands change).operands ↔ ∃ a ∈ e.operands, change a = b := by
  cases e <;> simp [mapOperands, operands, eq_comm]

theorem mapOperands_congr {change change' : Expr → Expr} {e : Expr}
    (h : ∀ a ∈ e.operands, change a = change' a) : e.mapOperands change = e.mapOperands change' := by
  cases e <;> simp_all [mapOperands, operands]

theorem callee?_of_operator {e : Expr} (h : e.isOperator = true) : e.callee? = none := by
  cases e <;> simp_all [isOperator, callee?]

theorem isOperator_mapOperands (change : Expr → Expr) (e : Expr) :
    (e.mapOperands change).isOperator = e.isOperator := by
  cases e <;> rfl

end Expr

end ShapeCheck
