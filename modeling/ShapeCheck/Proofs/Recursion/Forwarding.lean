import Mathlib.Logic.Relation
import ShapeCheck.Compile.Basic
import ShapeCheck.Proofs.Compilation.Registry
import ShapeCheck.Proofs.Meaning.Keys
import ShapeCheck.Proofs.Operands

set_option autoImplicit false

/-! # Calls on the value itself

A predicate that calls another one on a member or an element of its value goes on with less. One that
hands its value on as it is does not, so a cycle of such calls never ends. `Predicate.ownCalls` are the
calls of this kind; only unions, intersections, references and optional parts make any. For types,
`Context.Passes` says what a type hands the value on to, and `Predicate.IsOf` that a predicate hands it on
as its type does.

Main facts: the lemmas on `Stmt.ownCalls`, and `Context.IsNamed.unique` (a type in a context has one
name).
-/

namespace ShapeCheck

/-! ## Own calls -/

namespace Expr

/-- The predicate that a part applies to a variable. -/
def calleeOn? (name : String) : Expr → Option String
  | .call f (.var x) => if x = name then some f else none
  | _ => none

/-- The predicates that an expression applies to a variable, in order. -/
def callsOn (name : String) (e : Expr) : List String := e.nodes.filterMap (calleeOn? name)

theorem callsOn_eq (name : String) (e : Expr) :
    e.callsOn name = (e.calleeOn? name).toList ++ e.operands.flatMap (callsOn name) := by
  unfold callsOn
  rw [nodes_eq, List.filterMap_cons, List.filterMap_flatMap]
  cases e.calleeOn? name <;> rfl

/-- The predicates that an expression applies to the value to check. -/
abbrev ownCalls (e : Expr) : List String := e.callsOn parameterName

theorem ownCalls_callOn (f : String) : (callOn f).ownCalls = [f] := rfl

theorem ownCalls_and (es : List Expr) : (and es).ownCalls = es.flatMap ownCalls := by
  rw [ownCalls, callsOn_eq]
  rfl

theorem ownCalls_or (es : List Expr) : (or es).ownCalls = es.flatMap ownCalls := by
  rw [ownCalls, callsOn_eq]
  rfl

theorem ownCalls_anyOf (es : List Expr) : (anyOf es).ownCalls = es.flatMap ownCalls := by
  unfold anyOf
  split
  · simp
  · exact ownCalls_or _

theorem flatMap_ownCalls_callOn (names : List String) :
    (names.map callOn).flatMap ownCalls = names := by
  induction names with
  | nil => rfl
  | cons name rest ih => simp [ih, ownCalls_callOn]

end Expr

/-- The predicates that a predicate applies to its own value. -/
def Predicate.ownCalls (p : Predicate) : List String := p.exprs.flatMap (Expr.callsOn p.parameter)

/-- The predicates that statements apply to the value to check. -/
def Stmt.ownCalls (stmts : List Stmt) : List String := (exprsOfAll stmts).flatMap Expr.ownCalls

/-- A predicate of the first name hands its value on, as it is, to one of the second name. -/
def Validator.Forwards (v : Validator) (f g : String) : Prop :=
  ∃ p ∈ v.predicates, p.name = f ∧ g ∈ p.ownCalls

theorem Stmt.ownCalls_append (stmts rest : List Stmt) :
    ownCalls (stmts ++ rest) = ownCalls stmts ++ ownCalls rest := by
  have exprs : exprsOfAll (stmts ++ rest) = exprsOfAll stmts ++ exprsOfAll rest := by
    induction stmts with
    | nil => rfl
    | cons stmt stmts ih => simp [exprsOfAll, ih]
  simp [ownCalls, exprs]

theorem Stmt.ownCalls_result (e : Expr) : ownCalls [.result e] = e.ownCalls := by
  simp [ownCalls, exprsOfAll, exprs]

theorem Stmt.ownCalls_rejectUnless (e : Expr) (rest : List Stmt) :
    ownCalls (rejectUnless e :: rest) = e.ownCalls ++ ownCalls rest := by
  have negated : (Expr.not e).ownCalls = e.ownCalls := by
    rw [Expr.ownCalls, Expr.callsOn_eq]
    simp [Expr.calleeOn?, Expr.operands]
  have constant : (Expr.bool false).ownCalls = [] := rfl
  simp only [ownCalls, rejectUnless, exprsOfAll, exprs, List.flatMap_append, List.flatMap_cons, negated,
    constant, List.flatMap_nil, List.append_nil]

theorem Descriptor.leaf?_ownCalls {descriptor : Descriptor} {leaf : Leaf}
    (h : descriptor.leaf? = some leaf) : leaf.check.ownCalls = [] := by
  cases descriptor with
  | keyword word => cases word <;> cases h <;> rfl
  | stringLiteral | numberLiteral | booleanLiteral | buffer | view =>
    cases h
    rfl
  | _ => cases h

/-! ## Types in contexts -/

namespace Context

/-- The types of the members of an object. -/
def memberTypes (shape : ObjectShape) : List TypeId :=
  shape.properties.filterMap Property.type ++ shape.index.toList

/-- A type hands the value on to another one as it is. -/
inductive Passes : Context × TypeId → Context × TypeId → Prop
  | parameter {ctx visible : Context} {type target : TypeId} {id : ParameterId}
      (found : ctx.arena.lookup? type = some (.parameter id))
      (stands : ctx.resolve id = .ok (target, visible)) : Passes (ctx, type) (visible, target)
  | alternative {ctx : Context} {type member : TypeId} {members : List TypeId}
      (found : ctx.arena.lookup? type = some (.union members)) (inside : member ∈ members) :
      Passes (ctx, type) (ctx, member)
  | conjunct {ctx : Context} {type member : TypeId} {members : List TypeId}
      (found : ctx.arena.lookup? type = some (.intersection members)) (inside : member ∈ members) :
      Passes (ctx, type) (ctx.withExact false, member)
  | body {ctx inside : Context} {type body : TypeId} {target : DefinitionId} {arguments : List TypeId}
      {definition : Definition} (found : ctx.arena.lookup? type = some (.reference target arguments))
      (leads : ctx.arena.definition? target = some definition)
      (entered : ctx.enter definition arguments = .ok inside) (given : definition.body = some body)
      (plain : definition.bases = []) : Passes (ctx, type) (inside, body)

/-- A type applies another one to a part of the value. -/
inductive Inspects : Context × TypeId → Context × TypeId → Prop
  | element {ctx : Context} {type element : TypeId}
      (found : ctx.arena.lookup? type = some (.array element)) : Inspects (ctx, type) (ctx, element)
  | position {ctx : Context} {type : TypeId} {elements : List TupleElement} {element : TupleElement}
      (found : ctx.arena.lookup? type = some (.tuple elements)) (inside : element ∈ elements) :
      Inspects (ctx, type) (ctx, element.type)
  | member {ctx : Context} {type member : TypeId} {shape : ObjectShape}
      (found : ctx.arena.lookup? type = some (.object shape)) (inside : member ∈ memberTypes shape) :
      Inspects (ctx, type) (ctx, member)
  | inherited {ctx inside : Context} {type member : TypeId} {target : DefinitionId}
      {arguments : List TypeId} {definition : Definition} {shape : ObjectShape}
      (found : ctx.arena.lookup? type = some (.reference target arguments))
      (leads : ctx.arena.definition? target = some definition)
      (entered : ctx.enter definition arguments = .ok inside) (derived : definition.bases ≠ [])
      (merged : ctx.arena.mergedShape definition = .ok shape) (listed : member ∈ memberTypes shape) :
      Inspects (ctx, type) (inside, member)

/-- What is compiled when a root is. -/
def Reaches (root goal : Context × TypeId) : Prop :=
  Relation.ReflTransGen (fun a b => Passes a b ∨ Inspects a b) root goal

/-- The type has this name in its context. -/
def IsNamed (goal : Context × TypeId) (name : String) : Prop :=
  ∃ depth, goal.1.nameOf depth goal.2 = .ok name

theorem IsNamed.unique {goal : Context × TypeId} {name name' : String} (h : IsNamed goal name)
    (h' : IsNamed goal name') : name = name' := by
  obtain ⟨depth, named⟩ := h
  obtain ⟨depth', named'⟩ := h'
  have here := typeNameWithin_mono (Nat.le_max_left depth depth') _ _ _ name named
  have there := typeNameWithin_mono (Nat.le_max_right depth depth') _ _ _ name' named'
  exact Except.ok.inj (here.symm.trans there)

theorem IsNamed.of_parameter {ctx visible : Context} {type target : TypeId} {id : ParameterId}
    {name : String} (named : IsNamed (visible, target) name)
    (found : ctx.arena.lookup? type = some (.parameter id))
    (stands : ctx.resolve id = .ok (target, visible)) : IsNamed (ctx, type) name := by
  obtain ⟨depth, named⟩ := named
  obtain ⟨⟨target', s⟩, resolved, made⟩ := bind_eq_ok.1 stands
  cases made
  exact ⟨depth + 1, (typeNameWithin_parameter found resolved).trans named⟩

/-- Names keep apart what unfolds differently: where two types that are compiled share a name, whatever
one of them hands its value on to shares a name with something that the other hands its value on to. No
type has the name of an optional part or of a check for keys. -/
structure ToldApart (root : Context × TypeId) : Prop where
  unfold : ∀ a b name, Reaches root a → Reaches root b → IsNamed a name → IsNamed b name →
    ∀ c, Passes a c → ∃ d, Passes b d ∧ ∀ part, IsNamed c part → IsNamed d part
  optional : ∀ a inner, Reaches root a → ¬ IsNamed a (optionalName inner)
  keys : ∀ a keys, Reaches root a → ¬ IsNamed a (exactKeysName keys)

/-- No type that is compiled comes back to itself without going on to a part of the value. -/
def IsGuarded (root : Context × TypeId) : Prop :=
  ∀ goal, Reaches root goal → ¬ Relation.TransGen Passes goal goal

end Context

open Context

/-! ## What a predicate hands on -/

/-- The predicate is that of a type, and applies to its own value only predicates of types that the type
hands its value on to, or checks for keys; or else it is that of an optional part, which applies that of
a type, or a check for keys. -/
inductive Predicate.IsOf (root : Context × TypeId) (p : Predicate) : Prop
  | type {goal : Context × TypeId} (reached : Reaches root goal) (named : IsNamed goal p.name)
      (own : ∀ f ∈ p.ownCalls, (∃ next, Passes goal next ∧ IsNamed next f) ∨
        ∃ keys, f = exactKeysName keys)
  | optional {goal : Context × TypeId} {inner : String} (reached : Reaches root goal)
      (named : IsNamed goal inner) (wraps : p.name = optionalName inner) (own : ∀ f ∈ p.ownCalls, f = inner)
  | keys {keys : List String} (named : p.name = exactKeysName keys) (own : p.ownCalls = [])

/-- Steps that complete such predicates only. -/
abbrev KeepsOf {α : Type} (root : Context × TypeId) (m : Build α) (Q : α → Prop) : Prop :=
  Keeps (Registry.Holds (Predicate.IsOf root)) m Q

end ShapeCheck
