import ShapeCheck.Proofs.Operands
import ShapeCheck.Proofs.Script.Reader

set_option autoImplicit false

/-! # The tree of an expression

What an expression of a predicate is in the script language. An inlined call is its body, one of several
texts is a chain of comparisons, and a chain in a chain of the same operator adds its links to it. Chains
group to the left; one link alone is no chain, and without links a chain is a constant.
-/

namespace ShapeCheck

namespace Script

namespace Tree

/-- A number: numbers have no sign in the script language, and infinity and what is no number are
identifiers. There is one zero. -/
def ofNumber (x : Double) : Tree :=
  if x.isNaN then identifier "NaN"
  else
    let unsigned :=
      if x.isInfinite then identifier "Infinity" else number (Double.ofMagnitude false x.magnitude)
    if x.negative && !x.isZero then negate unsigned else unsigned

/-- A chain that groups to the left. -/
def join (operator : BinaryOperator) (constant : Bool) : List Tree → Tree
  | [] => bool constant
  | first :: rest => rest.foldl (binary operator) first

/-- The value is compared with several texts. -/
def tests (value : Tree) (options : List String) : List Tree :=
  options.map fun option => binary .strictEq value (string option)

/-- Access to a member of a fixed name. -/
def access (whole : Tree) (key : String) : Tree :=
  if Text.isIdentifier key then dot whole key else index whole (string key)

end Tree

section
variable (identifier : String → String)

mutual

/-- The tree of an expression, where `identifier` gives the functions of predicates. -/
def tree : Expr → Tree
  | .var name => .identifier name
  | .undefined => .identifier "undefined"
  | .null => .null
  | .bool b => .bool b
  | .number x => .ofNumber x
  | .string s => .string s
  | .typeOf e => .unary .typeOf (tree e)
  | .strictEq a b => .binary .strictEq (tree a) (tree b)
  | .strictNe a b => .binary .strictNe (tree a) (tree b)
  | .not e => .unary .not (tree e)
  | .and operands => .join .and true (allLinks .and operands)
  | .or operands => .join .or false (allLinks .or operands)
  | .compare order a b => .binary (.compare order) (tree a) (tree b)
  | .member e key => .access (tree e) key
  | .index e key => .index (tree e) (tree key)
  | .hasKey key e => .binary .hasKey (tree key) (tree e)
  | .length e => .dot (tree e) "length"
  | .constructorName e => .dot (.dot (tree e) "constructor") "name"
  | .isArray e => .apply (.dot (.identifier "Array") "isArray") (tree e)
  | .isBuffer e => .apply (.identifier "isBuffer") (tree e)
  | .isView e => .apply (.dot (.identifier "ArrayBuffer") "isView") (tree e)
  | .oneOf e options => .join .or false (Tree.tests (tree e) options)
  | .call f e => .apply (.identifier (identifier f)) (tree e)
  | .inlined _ _ _ body => tree body
termination_by e => (sizeOf e, 0)

/-- The links that an operand adds to a chain of an operator. -/
def links (operator : BinaryOperator) : Expr → List Tree
  | .and (first :: rest) =>
    if operator = .and then allLinks operator (first :: rest) else [tree (.and (first :: rest))]
  | .or (first :: rest) =>
    if operator = .or then allLinks operator (first :: rest) else [tree (.or (first :: rest))]
  | .oneOf e (first :: rest) =>
    if operator = .or then Tree.tests (tree e) (first :: rest) else [tree (.oneOf e (first :: rest))]
  | .inlined _ _ _ body => links operator body
  | e => [tree e]
termination_by e => (sizeOf e, 1)

/-- The links that operands add to a chain of an operator. -/
def allLinks (operator : BinaryOperator) : List Expr → List Tree
  | [] => []
  | e :: rest => links operator e ++ allLinks operator rest
termination_by es => (sizeOf es, 0)

end

theorem allLinks_eq_flatMap (operator : BinaryOperator) (es : List Expr) :
    allLinks identifier operator es = es.flatMap (links identifier operator) := by
  induction es with
  | nil => rw [allLinks, List.flatMap_nil]
  | cons e rest ih => rw [allLinks, List.flatMap_cons, ih]

end

/-! ## Expressions that can be written -/

/-- The expression is a number, possibly as the body of an inlined call. -/
def isNumber : Expr → Bool
  | .number _ => true
  | .inlined _ _ _ body => isNumber body
  | _ => false

/-- What an expression puts a point behind. -/
def receiver? : Expr → Option Expr
  | .member e key => if Text.isIdentifier key then some e else none
  | .length e | .constructorName e => some e
  | _ => none

/-- Variables are identifiers, and no point stands behind a number. -/
structure IsWritable (letters : Letters) (e : Expr) : Prop where
  names : ∀ name ∈ e.varNames, letters.IsIdentifier name
  receivers : ∀ part ∈ e.nodes, ∀ receiver ∈ receiver? part, isNumber receiver = false

namespace IsWritable

variable {letters : Letters} {e : Expr} (h : IsWritable letters e)
include h

theorem of_operand {a : Expr} (inside : a ∈ e.operands) : IsWritable letters a where
  names name isVar := h.names name (Expr.mem_varNames_of_operand inside isVar)
  receivers part isPart := h.receivers part (Expr.mem_nodes_of_operand inside isPart)

theorem receiver {receiver : Expr} (accessed : receiver? e = some receiver) :
    isNumber receiver = false :=
  h.receivers e e.mem_nodes_self receiver accessed

end IsWritable

end Script

end ShapeCheck
