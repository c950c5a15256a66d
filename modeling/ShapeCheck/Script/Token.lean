import ShapeCheck.Predicate.Expr

set_option autoImplicit false

/-! # Tokens of scripts

An expression is written as a list of tokens, and a token as a text. Calls are tokens that hold the
name of a predicate; which identifier stands for it is decided when the tokens are written out.

Main fact: `Script.text_append` (a longer text is the texts of its parts).
-/

namespace ShapeCheck

namespace Script

/-! ## Operators -/

/-- An operator between two operands. -/
inductive BinaryOperator
  | or
  | and
  | strictEq
  | strictNe
  | compare (order : Comparison)
  /-- The key on the left belongs to the object on the right. -/
  | hasKey
  deriving DecidableEq, Repr, Inhabited

/-- The sign of an operator. -/
def BinaryOperator.sign : BinaryOperator → String
  | or => "||"
  | and => "&&"
  | strictEq => "==="
  | strictNe => "!=="
  | compare order => order.sign
  | hasKey => "in"

/-- An operator in front of its operand. -/
inductive UnaryOperator
  | not
  | typeOf
  deriving DecidableEq, Repr, Inhabited

/-- An operator in front of its operand, with the blank that a word needs behind it. -/
def UnaryOperator.text : UnaryOperator → String
  | not => "!"
  | typeOf => "typeof "

/-! ## Tokens -/

/-- A token of a script. -/
inductive Token
  /-- A variable, a constant, or the name of a member. -/
  | word (text : String)
  /-- The function of a predicate. -/
  | callee (predicate : String)
  | number (value : Double)
  | string (value : String)
  | unary (operator : UnaryOperator)
  | binary (operator : BinaryOperator)
  | dot
  | openParen
  | closeParen
  | openBracket
  | closeBracket
  /-- A fixed piece of a statement. -/
  | code (text : String)
  deriving DecidableEq, Repr, Inhabited

namespace Token

/-- The text of a token, where `identifier` gives the functions of predicates. -/
def text (identifier : String → String) : Token → String
  | word text => text
  | callee predicate => identifier predicate
  | number value => value.text
  | string value => Text.quoteScript value
  | unary operator => operator.text
  | binary operator => " " ++ operator.sign ++ " "
  | dot => "."
  | openParen => "("
  | closeParen => ")"
  | openBracket => "["
  | closeBracket => "]"
  | code text => text

/-- The predicate whose function a token names. -/
def callee? : Token → Option String
  | callee predicate => some predicate
  | _ => none

end Token

/-- The text of tokens. -/
def text (identifier : String → String) (tokens : List Token) : String :=
  String.join (tokens.map (Token.text identifier))

theorem text_append (identifier : String → String) (xs ys : List Token) :
    text identifier (xs ++ ys) = text identifier xs ++ text identifier ys := by
  simp [text, String.join_append]

end Script

end ShapeCheck
