import ShapeCheck.Number.Double

set_option autoImplicit false

/-! # Decimal numerals

A `Decimal` is `± digits * 10 ^ exponent`. It is what a numeral in a text spells, before it is
rounded to a double, and what is left of a double once its digits have been chosen.

Main fact: `digitsOf_length_pos` (a numeral has a digit, so it can be written).
-/

namespace ShapeCheck

/-- A decimal number in scientific form. -/
structure Decimal where
  /-- The sign; it matters for zero too. -/
  negative : Bool
  /-- The significant digits, read as one natural number. -/
  digits : Nat
  /-- The power of ten of the last digit. -/
  exponent : Int
  deriving DecidableEq, Repr, Inhabited

namespace Decimal

/-! ## Digits -/

/-- The decimal digits of a natural number, highest first; zero has one digit. -/
def digitsOf (n : Nat) : List Char := Nat.toDigits 10 n

theorem digitsOf_length_pos (n : Nat) : 0 < (digitsOf n).length := by
  simp [digitsOf, Nat.length_toDigits_pos]

/-- The value of one decimal digit. -/
def digitValue (c : Char) : Nat := c.toNat - '0'.toNat

/-- The natural number that a list of digits spells, read after the digits of `start`. -/
def readDigits (start : Nat) (digits : List Char) : Nat :=
  digits.foldl (fun value c => 10 * value + digitValue c) start

/-! ## From decimal to binary -/

/-- The nearest double, a half going to the even neighbour. The two shortcuts keep the powers of
ten small: beyond them the answer is infinite or zero whatever the digits are. -/
def toDouble (x : Decimal) : Double :=
  let top : Int := (digitsOf x.digits).length + x.exponent
  if x.digits = 0 ∨ top < -400 then Double.ofMagnitude x.negative 0
  else if 400 < top then Double.ofMagnitude x.negative Double.infiniteMagnitude
  else
    match x.exponent with
    | .ofNat k => Double.ofRatio x.negative (x.digits * Nat.pow 10 k) 1
    | .negSucc k => Double.ofRatio x.negative x.digits (Nat.pow 10 (k + 1))

end Decimal

end ShapeCheck
