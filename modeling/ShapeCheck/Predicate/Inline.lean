import ShapeCheck.Predicate.Basic

set_option autoImplicit false

/-! # Inlining and pruning

A trivial predicate is one expression over its parameter. Its calls are replaced by the expression
itself, with the argument in place of the parameter. That can make a caller trivial in turn, so
rounds are repeated until nothing changes, and predicates that the root no longer reaches are
dropped.

Rounds end: a round takes away the outermost calls of trivial predicates, so the depth to which such
calls are nested falls, and it can rise again only when a further predicate has become trivial. That
bounds their number by `roundLimit`.

Main fact: `mem_prune` (pruning keeps exactly what is reached).
-/

namespace ShapeCheck

namespace Predicate

/-! ## Rounds -/

/-- A trivial predicate, as it is written out at its calls. -/
structure TrivialBody where
  expr : Expr
  parameter : String
  reason : Option Reason
  deriving Repr, Inhabited

/-- The body of a trivial predicate. -/
def trivialBody? (p : Predicate) : Option TrivialBody :=
  if p.isTrivial then p.singleResult?.map fun e => ⟨e, p.parameter, p.reason⟩ else none

/-- The trivial predicates among some, by name. -/
def trivialBodies (predicates : List Predicate) : List (String × TrivialBody) :=
  predicates.filterMap fun p => p.trivialBody?.map fun body => (p.name, body)

end Predicate

namespace Expr

mutual

/-- Writes out the outermost calls of trivial predicates. Their arguments stay as they are. -/
def inlineCalls (trivial : List (String × Predicate.TrivialBody)) : Expr → Expr
  | .call f e =>
    match trivial.lookup f with
    -- calls in the callee or the argument are left to the next round
    | some callee => .inlined f callee.reason e (callee.expr.substitute callee.parameter e)
    | none => .call f (inlineCalls trivial e)
  | .var x => .var x
  | .undefined => .undefined
  | .null => .null
  | .bool b => .bool b
  | .number x => .number x
  | .string s => .string s
  | .typeOf e => .typeOf (inlineCalls trivial e)
  | .strictEq a b => .strictEq (inlineCalls trivial a) (inlineCalls trivial b)
  | .strictNe a b => .strictNe (inlineCalls trivial a) (inlineCalls trivial b)
  | .not e => .not (inlineCalls trivial e)
  | .and es => .and (inlineCallsInAll trivial es)
  | .or es => .or (inlineCallsInAll trivial es)
  | .compare order a b => .compare order (inlineCalls trivial a) (inlineCalls trivial b)
  | .member e key => .member (inlineCalls trivial e) key
  | .index e key => .index (inlineCalls trivial e) (inlineCalls trivial key)
  | .hasKey key e => .hasKey (inlineCalls trivial key) (inlineCalls trivial e)
  | .length e => .length (inlineCalls trivial e)
  | .constructorName e => .constructorName (inlineCalls trivial e)
  | .isArray e => .isArray (inlineCalls trivial e)
  | .isBuffer e => .isBuffer (inlineCalls trivial e)
  | .isView e => .isView (inlineCalls trivial e)
  | .oneOf e options => .oneOf (inlineCalls trivial e) options
  | .inlined f reason e body =>
    .inlined f reason (inlineCalls trivial e) (inlineCalls trivial body)

/-- Writes out the calls in several expressions. -/
def inlineCallsInAll (trivial : List (String × Predicate.TrivialBody)) : List Expr → List Expr
  | [] => []
  | e :: rest => inlineCalls trivial e :: inlineCallsInAll trivial rest

end

mutual

/-- How deep calls are nested in the arguments of calls. -/
def callDepth : Expr → Nat
  | .call _ e => e.callDepth + 1
  | .typeOf e => e.callDepth
  | .strictEq a b => max a.callDepth b.callDepth
  | .strictNe a b => max a.callDepth b.callDepth
  | .not e => e.callDepth
  | .and es => callDepthOfAll es
  | .or es => callDepthOfAll es
  | .compare _ a b => max a.callDepth b.callDepth
  | .member e _ => e.callDepth
  | .index e key => max e.callDepth key.callDepth
  | .hasKey key e => max key.callDepth e.callDepth
  | .length e => e.callDepth
  | .constructorName e => e.callDepth
  | .isArray e => e.callDepth
  | .isBuffer e => e.callDepth
  | .isView e => e.callDepth
  | .oneOf e _ => e.callDepth
  | .inlined _ _ e body => max e.callDepth body.callDepth
  | _ => 0

/-- The greatest depth among several expressions. -/
def callDepthOfAll : List Expr → Nat
  | [] => 0
  | e :: rest => max e.callDepth (callDepthOfAll rest)

end

end Expr

namespace Predicate

/-- One round for one predicate. -/
def inlineRound (trivial : List (String × TrivialBody)) (p : Predicate) : Predicate :=
  { p with body := Stmt.mapAllExprs (Expr.inlineCalls trivial) p.body }

/-- Some predicate calls a trivial one. -/
def callsTrivial (trivial : List (String × TrivialBody)) (predicates : List Predicate) : Bool :=
  predicates.any fun p => p.exprs.any fun e => e.somePart fun part =>
    part.callee?.any fun f => (trivial.lookup f).isSome

/-- Rounds until no predicate calls a trivial one. -/
def inlineRounds : Nat → List Predicate → List Predicate
  | 0, predicates => predicates
  | fuel + 1, predicates =>
    let trivial := trivialBodies predicates
    if callsTrivial trivial predicates then
      inlineRounds fuel (predicates.map (inlineRound trivial))
    else predicates

/-- A number of rounds that is always enough. -/
def roundLimit (predicates : List Predicate) : Nat :=
  let depth := Expr.callDepthOfAll (predicates.flatMap Predicate.exprs)
  (predicates.length + 1) * (depth + 1) + 1

/-! ## Pruning -/

/-- The predicates that one calls, if it is there. -/
def calleesOf (predicates : List Predicate) (name : String) : List String :=
  match predicates.find? (·.name == name) with
  | some p => p.callees
  | none => []

/-- Visits all names that calls lead to, starting from some that are pending. -/
def visit (next : String → List String) : Nat → List String → List String → List String
  | 0, _, seen => seen
  | _ + 1, [], seen => seen
  | fuel + 1, name :: pending, seen =>
    if seen.contains name then visit next fuel pending seen
    else visit next fuel (next name ++ pending) (name :: seen)

/-- The names that are reached from a root through calls. Every predicate is visited once and hands
on its callees once, which bounds the number of steps. -/
def reachable (predicates : List Predicate) (root : String) : List String :=
  let steps := predicates.foldl (fun steps p => steps + p.callees.length) 2
  visit (calleesOf predicates) steps [root] []

/-- Drops the predicates that are not reached from the root. -/
def prune (predicates : List Predicate) (root : String) : List Predicate :=
  let kept := reachable predicates root
  predicates.filter fun p => kept.contains p.name

theorem mem_prune {predicates : List Predicate} {root : String} {p : Predicate} :
    p ∈ prune predicates root ↔ p ∈ predicates ∧ p.name ∈ reachable predicates root := by
  simp [prune]

/-- Writes out all calls of trivial predicates, then drops what is no longer reached. -/
def inlineTrivial (predicates : List Predicate) (root : String) : List Predicate :=
  prune (inlineRounds (roundLimit predicates) predicates) root

end Predicate

end ShapeCheck
