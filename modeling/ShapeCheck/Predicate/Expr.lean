import ShapeCheck.Number.Notation
import ShapeCheck.Text.Quoted

set_option autoImplicit false

/-! # Predicate expressions

A compiled check is a small program over one value. Its expressions are the few operations that a
type guard needs: tags, strict equality, access to members, host checks, and calls of other
predicates by name. `Expr.inlined` is a call whose callee has been written out in its place: only
its body is evaluated, the rest tells where it came from.

Main facts: `Expr.mem_nodes_self` (an expression is among its own parts) and
`Expr.calls_call` (a call counts its callee, then the calls of its argument).
-/

namespace ShapeCheck

/-! ## Reasons -/

/-- What a leaf predicate asks of a value; attached to it so that a rejection can be explained. -/
inductive Reason
  | string
  | number
  | boolean
  | bigint
  | null
  | undefined
  | stringLiteral (value : String)
  | numberLiteral (value : Double)
  | booleanLiteral (value : Bool)
  | nonPrimitive
  deriving DecidableEq, Repr, Inhabited

namespace Reason

/-- The reason in words. -/
def text : Reason → String
  | string => "expected a string"
  | number => "expected a number"
  | boolean => "expected a boolean"
  | bigint => "expected a bigint"
  | null => "expected null"
  | undefined => "expected undefined"
  | stringLiteral value => "expected string " ++ Text.quoteVisible value
  | numberLiteral value => "expected number " ++ value.text
  | booleanLiteral value => "expected " ++ toString value
  | nonPrimitive => "expected a non-primitive"

/-- Two reasons ask the same. Number literals are compared as numbers, so one that asks for NaN
is not even the same as itself. -/
def sameAs : Reason → Reason → Bool
  | numberLiteral x, numberLiteral y => x.equals y
  | r, s => r == s

end Reason

/-! ## Expressions -/

/-- An order between numbers. -/
inductive Comparison
  | lt
  | le
  | gt
  | ge
  deriving DecidableEq, Repr, Inhabited

/-- The operator sign of an order. -/
def Comparison.sign : Comparison → String
  | lt => "<"
  | le => "<="
  | gt => ">"
  | ge => ">="

/-- An expression over the parameter of a predicate and the variables of its loops. -/
inductive Expr
  | var (name : String)
  | undefined
  | null
  | bool (value : Bool)
  | number (value : Double)
  | string (value : String)
  /-- The tag of a value. -/
  | typeOf (value : Expr)
  | strictEq (left right : Expr)
  | strictNe (left right : Expr)
  | not (value : Expr)
  /-- All of them; true if there are none. -/
  | and (operands : List Expr)
  /-- One of them; false if there are none. -/
  | or (operands : List Expr)
  | compare (order : Comparison) (left right : Expr)
  /-- The member under a fixed key. -/
  | member (whole : Expr) (key : String)
  /-- The member under a computed key. -/
  | index (whole key : Expr)
  /-- The value has the key. -/
  | hasKey (key whole : Expr)
  | length (value : Expr)
  | constructorName (value : Expr)
  | isArray (value : Expr)
  | isBuffer (value : Expr)
  | isView (value : Expr)
  /-- The value is one of some texts. -/
  | oneOf (value : Expr) (options : List String)
  /-- The predicate of this name accepts the argument. -/
  | call (function : String) (argument : Expr)
  /-- A call written out: the body is the callee's, with the argument in place of its parameter. -/
  | inlined (function : String) (reason : Option Reason) (argument body : Expr)
  deriving Repr, Inhabited

namespace Expr

/-! ## Common forms -/

/-- The name of the parameter of compiled predicates. -/
def parameterName : String := "object"

/-- The variable of loops over positions. -/
def indexName : String := "i"

/-- The variable of loops over keys. -/
def keyName : String := "key"

/-- The value to check. -/
def parameter : Expr := .var parameterName

/-- The value has this tag. -/
def typeOfIs (value : Expr) (tag : String) : Expr := .strictEq (.typeOf value) (.string tag)

/-- The value has a fixed key. -/
def hasName (key : String) (whole : Expr) : Expr := .hasKey (.string key) whole

/-- The tests for an object that is neither null nor an array. -/
def plainObjectTests (value : Expr) : List Expr :=
  [typeOfIs value "object", .strictNe value .null, .not (.isArray value)]

/-- All of them, a single one standing for itself. -/
def allOf : List Expr → Expr
  | [operand] => operand
  | operands => .and operands

/-- One of them, a single one standing for itself. -/
def anyOf : List Expr → Expr
  | [operand] => operand
  | operands => .or operands

/-- The constant that is always true. -/
def isTrue : Expr → Bool
  | .bool b => b
  | _ => false

/-! ## Parts -/

mutual

/-- The expression and all its parts, each before its own parts and from left to right. -/
def nodes : Expr → List Expr
  | .typeOf e => .typeOf e :: e.nodes
  | .strictEq a b => .strictEq a b :: (a.nodes ++ b.nodes)
  | .strictNe a b => .strictNe a b :: (a.nodes ++ b.nodes)
  | .not e => .not e :: e.nodes
  | .and es => .and es :: nodesOfAll es
  | .or es => .or es :: nodesOfAll es
  | .compare order a b => .compare order a b :: (a.nodes ++ b.nodes)
  | .member e key => .member e key :: e.nodes
  | .index e key => .index e key :: (e.nodes ++ key.nodes)
  | .hasKey key e => .hasKey key e :: (key.nodes ++ e.nodes)
  | .length e => .length e :: e.nodes
  | .constructorName e => .constructorName e :: e.nodes
  | .isArray e => .isArray e :: e.nodes
  | .isBuffer e => .isBuffer e :: e.nodes
  | .isView e => .isView e :: e.nodes
  | .oneOf e options => .oneOf e options :: e.nodes
  | .call f e => .call f e :: e.nodes
  | .inlined f reason e body => .inlined f reason e body :: (e.nodes ++ body.nodes)
  | e => [e]

/-- The parts of several expressions. -/
def nodesOfAll : List Expr → List Expr
  | [] => []
  | e :: rest => e.nodes ++ nodesOfAll rest

end

theorem mem_nodes_self (e : Expr) : e ∈ e.nodes := by
  cases e <;> simp [nodes]

/-- The variable that a part is. -/
def varName? : Expr → Option String
  | .var name => some name
  | _ => none

/-- The predicate that a part calls. -/
def callee? : Expr → Option String
  | .call f _ => some f
  | _ => none

/-- The variables of an expression, in order. -/
def varNames (e : Expr) : List String := e.nodes.filterMap varName?

/-- The predicates that an expression calls, in order. -/
def calls (e : Expr) : List String := e.nodes.filterMap callee?

theorem calls_call (f : String) (e : Expr) : (Expr.call f e).calls = f :: e.calls := by
  simp [calls, nodes, callee?]

mutual

/-- Some part passes a test. -/
def somePart (test : Expr → Bool) (e : Expr) : Bool :=
  test e ||
    match e with
    | .typeOf e | .not e | .member e _ | .length e | .constructorName e | .isArray e | .isBuffer e
    | .isView e | .oneOf e _ | .call _ e => e.somePart test
    | .strictEq a b | .strictNe a b | .compare _ a b | .index a b | .hasKey a b
    | .inlined _ _ a b => a.somePart test || b.somePart test
    | .and es | .or es => somePartOfAll test es
    | _ => false

/-- Some part of several expressions passes a test. -/
def somePartOfAll (test : Expr → Bool) : List Expr → Bool
  | [] => false
  | e :: rest => e.somePart test || somePartOfAll test rest

end

mutual

theorem somePart_eq (test : Expr → Bool) (e : Expr) : e.somePart test = e.nodes.any test := by
  cases e <;> simp [somePart, nodes, somePart_eq test, somePartOfAll_eq test]

theorem somePartOfAll_eq (test : Expr → Bool) (es : List Expr) :
    somePartOfAll test es = (nodesOfAll es).any test := by
  cases es <;> simp [somePartOfAll, nodesOfAll, somePart_eq test, somePartOfAll_eq test]

end

/-- The expression contains a call. -/
def hasCall (e : Expr) : Bool := e.somePart fun part => part.callee?.isSome

theorem hasCall_eq_false_iff (e : Expr) : e.hasCall = false ↔ e.calls = [] := by
  simp [hasCall, calls, somePart_eq, List.filterMap_eq_nil_iff]

/-- Every variable of the expression is this one. -/
def onlyReferences (e : Expr) (name : String) : Bool :=
  !e.somePart fun part => part.varName?.any (· != name)

theorem onlyReferences_iff (e : Expr) (name : String) :
    e.onlyReferences name = true ↔ ∀ x ∈ e.varNames, x = name := by
  simp [onlyReferences, varNames, somePart_eq, Option.any_eq_true]
  grind

/-! ## Equality -/

mutual

/-- Two expressions are the same. Numbers count by their bits, but the reasons that inlined calls
carry are compared by `Reason.sameAs`. -/
def sameAs : Expr → Expr → Bool
  | .var x, .var y => x == y
  | .undefined, .undefined => true
  | .null, .null => true
  | .bool x, .bool y => x == y
  | .number x, .number y => x == y
  | .string x, .string y => x == y
  | .typeOf a, .typeOf b => a.sameAs b
  | .strictEq a b, .strictEq c d => a.sameAs c && b.sameAs d
  | .strictNe a b, .strictNe c d => a.sameAs c && b.sameAs d
  | .not a, .not b => a.sameAs b
  | .and as, .and bs => allSameAs as bs
  | .or as, .or bs => allSameAs as bs
  | .compare x a b, .compare y c d => x == y && a.sameAs c && b.sameAs d
  | .member a x, .member b y => a.sameAs b && x == y
  | .index a b, .index c d => a.sameAs c && b.sameAs d
  | .hasKey a b, .hasKey c d => a.sameAs c && b.sameAs d
  | .length a, .length b => a.sameAs b
  | .constructorName a, .constructorName b => a.sameAs b
  | .isArray a, .isArray b => a.sameAs b
  | .isBuffer a, .isBuffer b => a.sameAs b
  | .isView a, .isView b => a.sameAs b
  | .oneOf a x, .oneOf b y => a.sameAs b && x == y
  | .call f a, .call g b => f == g && a.sameAs b
  | .inlined f r a x, .inlined g s b y =>
    f == g && sameReason r s && a.sameAs b && x.sameAs y
  | _, _ => false
where
  /-- Two reasons, if any, are the same. -/
  sameReason : Option Reason → Option Reason → Bool
    | none, none => true
    | some r, some s => r.sameAs s
    | _, _ => false

/-- Two lists hold the same expressions. -/
def allSameAs : List Expr → List Expr → Bool
  | [], [] => true
  | a :: as, b :: bs => a.sameAs b && allSameAs as bs
  | _, _ => false

end

/-! ## Substitution -/

mutual

/-- Writes an expression in place of every occurrence of a variable. -/
def substitute (e : Expr) (name : String) (argument : Expr) : Expr :=
  match e with
  | .var x => if x = name then argument else .var x
  | .undefined => .undefined
  | .null => .null
  | .bool b => .bool b
  | .number x => .number x
  | .string s => .string s
  | .typeOf e => .typeOf (e.substitute name argument)
  | .strictEq a b => .strictEq (a.substitute name argument) (b.substitute name argument)
  | .strictNe a b => .strictNe (a.substitute name argument) (b.substitute name argument)
  | .not e => .not (e.substitute name argument)
  | .and es => .and (substituteAll es name argument)
  | .or es => .or (substituteAll es name argument)
  | .compare order a b =>
    .compare order (a.substitute name argument) (b.substitute name argument)
  | .member e key => .member (e.substitute name argument) key
  | .index e key => .index (e.substitute name argument) (key.substitute name argument)
  | .hasKey key e => .hasKey (key.substitute name argument) (e.substitute name argument)
  | .length e => .length (e.substitute name argument)
  | .constructorName e => .constructorName (e.substitute name argument)
  | .isArray e => .isArray (e.substitute name argument)
  | .isBuffer e => .isBuffer (e.substitute name argument)
  | .isView e => .isView (e.substitute name argument)
  | .oneOf e options => .oneOf (e.substitute name argument) options
  | .call f e => .call f (e.substitute name argument)
  | .inlined f reason e body =>
    .inlined f reason (e.substitute name argument) (body.substitute name argument)

/-- Substitution in several expressions. -/
def substituteAll (es : List Expr) (name : String) (argument : Expr) : List Expr :=
  match es with
  | [] => []
  | e :: rest => e.substitute name argument :: substituteAll rest name argument

end

end Expr

end ShapeCheck
