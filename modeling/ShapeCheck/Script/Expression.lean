import ShapeCheck.Script.Token
import ShapeCheck.Text.Identifier

set_option autoImplicit false

/-! # Expressions of scripts

How an expression of a predicate is written in a script. Operands that bind looser than their place
allows are put into parentheses. An inlined call is written as its body, and one of several texts as
a chain of comparisons.

Main facts: `tokens_inlined` (an inlined call reads as its body) and `enclose_of_le` (nothing is put
into parentheses without need).
-/

namespace ShapeCheck

namespace Script

/-! ## Binding strength -/

/-- How strongly an expression binds, the weakest first. -/
inductive Strength
  | or
  | and
  | equality
  | relational
  | unary
  | member
  | primary
  deriving DecidableEq, Repr, Inhabited

namespace Strength

/-- The place in the order. -/
def rank : Strength → Nat
  | or => 0
  | and => 1
  | equality => 2
  | relational => 3
  | unary => 4
  | member => 5
  | primary => 6

/-- The next stronger one: what stands on the right of an operator that groups to the left. -/
def next : Strength → Strength
  | or => and
  | and => equality
  | equality => relational
  | relational => unary
  | unary => member
  | member => primary
  | primary => primary

end Strength

/-- How strongly the text of an expression binds. A negative number is written with a sign in front.
Chains without operands are constants. -/
def strength : Expr → Strength
  | .number x => if x.negative && !x.isZero then .unary else .primary
  | .typeOf _ | .not _ => .unary
  | .strictEq _ _ | .strictNe _ _ => .equality
  | .compare _ _ _ | .hasKey _ _ => .relational
  | .and operands => if operands.isEmpty then .primary else .and
  | .or operands => if operands.isEmpty then .primary else .or
  | .oneOf _ options => if options.length ≤ 1 then .equality else .or
  | .inlined _ _ _ body => strength body
  | .var _ | .undefined | .null | .bool _ | .string _ => .primary
  | .member _ _ | .index _ _ | .length _ | .constructorName _ | .isArray _ | .isBuffer _
  | .isView _ | .call _ _ => .member

/-! ## Tokens of an expression -/

/-- Puts tokens that bind with a given strength into parentheses where more is needed. -/
def enclose (least actual : Strength) (tokens : List Token) : List Token :=
  if actual.rank < least.rank then .openParen :: tokens ++ [.closeParen] else tokens

theorem enclose_of_le {least actual : Strength} (h : least.rank ≤ actual.rank)
    (tokens : List Token) : enclose least actual tokens = tokens := by
  simp [enclose, Nat.not_lt.2 h]

/-- Access to a member of a fixed name. -/
def memberTokens (key : String) : List Token :=
  if Text.isIdentifier key then [.dot, .word key] else [.openBracket, .string key, .closeBracket]

/-- Comparisons of one value with several texts. -/
def oneOfTokens (value : List Token) (options : List String) : List Token :=
  match options with
  | [] => [.word "false"]
  | options =>
    List.intercalate [.binary .or]
      (options.map fun option => value ++ [.binary .strictEq, .string option])

/-- A call of a function. -/
def applyTokens (function : Token) (argument : List Token) : List Token :=
  function :: .openParen :: argument ++ [.closeParen]

mutual

/-- The tokens of an expression. -/
def tokens : Expr → List Token
  | .var name => [.word name]
  | .undefined => [.word "undefined"]
  | .null => [.word "null"]
  | .bool b => [.word (toString b)]
  | .number x => [.number x]
  | .string s => [.string s]
  | .typeOf e => .unary .typeOf :: enclose .unary (strength e) (tokens e)
  | .strictEq a b =>
    enclose .equality (strength a) (tokens a) ++ .binary .strictEq ::
      enclose Strength.equality.next (strength b) (tokens b)
  | .strictNe a b =>
    enclose .equality (strength a) (tokens a) ++ .binary .strictNe ::
      enclose Strength.equality.next (strength b) (tokens b)
  | .not e => .unary .not :: enclose .unary (strength e) (tokens e)
  | .and [] => [.word "true"]
  | .and operands => List.intercalate [.binary .and] (operandTokens .and operands)
  | .or [] => [.word "false"]
  | .or operands => List.intercalate [.binary .or] (operandTokens .or operands)
  | .compare order a b =>
    enclose .relational (strength a) (tokens a) ++ .binary (.compare order) ::
      enclose Strength.relational.next (strength b) (tokens b)
  | .member e key => enclose .member (strength e) (tokens e) ++ memberTokens key
  -- brackets enclose the key already
  | .index e key =>
    enclose .member (strength e) (tokens e) ++ .openBracket :: tokens key ++ [.closeBracket]
  | .hasKey key e =>
    enclose .relational (strength key) (tokens key) ++ .binary .hasKey ::
      enclose Strength.relational.next (strength e) (tokens e)
  | .length e => enclose .member (strength e) (tokens e) ++ [.dot, .word "length"]
  | .constructorName e =>
    enclose .member (strength e) (tokens e) ++ [.dot, .word "constructor", .dot, .word "name"]
  | .isArray e => applyTokens (.word "Array.isArray") (tokens e)
  | .isBuffer e => applyTokens (.word "isBuffer") (tokens e)
  | .isView e => applyTokens (.word "ArrayBuffer.isView") (tokens e)
  -- the value is repeated on the left of every comparison
  | .oneOf e options => oneOfTokens (enclose .relational (strength e) (tokens e)) options
  | .call f e => applyTokens (.callee f) (tokens e)
  | .inlined _ _ _ body => tokens body

/-- The tokens of the operands of a chain, one list for each. -/
def operandTokens (least : Strength) : List Expr → List (List Token)
  | [] => []
  | e :: rest => enclose least (strength e) (tokens e) :: operandTokens least rest

end

theorem tokens_inlined (f : String) (reason : Option Reason) (argument body : Expr) :
    tokens (.inlined f reason argument body) = tokens body := by
  rw [tokens]

end Script

end ShapeCheck
