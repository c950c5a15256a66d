import ShapeCheck.Number.Shortest

set_option autoImplicit false

/-! # How numbers are written

Two spellings of a double occur in answers. `Double.text` is the one of names, messages and scripts:
it never uses an exponent. `Double.jsonText` is the one of JSON output: it always shows that the
number is a fraction, and very large and very small numbers get an exponent.
-/

namespace ShapeCheck

namespace Decimal

/-- A minus sign where one is due. -/
def sign (negative : Bool) : String := if negative then "-" else ""

/-- Positional notation: all digits, with zeros up to the point on either side. -/
def positional (x : Decimal) : String :=
  let digits := digitsOf x.digits
  let body : List Char :=
    match x.exponent with
    | .ofNat k => digits ++ List.replicate k '0'
    | .negSucc k =>
      let places := k + 1
      let padded := List.replicate (places + 1 - digits.length) '0' ++ digits
      let whole := padded.length - places
      padded.take whole ++ '.' :: padded.drop whole
  sign x.negative ++ String.ofList body

/-- One digit before the point, the others behind it, then a signed power of ten. -/
def scientific (x : Decimal) : String :=
  let digits := digitsOf x.digits
  let power : Int := x.exponent + (digits.length - 1 : Nat)
  let tail := if digits.length ≤ 1 then [] else '.' :: digits.drop 1
  sign x.negative ++ String.ofList (digits.take 1 ++ tail) ++ "e" ++
    (if power < 0 then "-" else "+") ++ toString power.natAbs

end Decimal

namespace Double

/-- The text of a number in names, messages and scripts. Integers below `10 ^ 21` are written out
exactly, every other finite number with the fewest digits that read back, and both zeros as `0`. -/
def text (x : Double) : String :=
  if x.isNaN then "NaN"
  else if x.isInfinite then (if x.negative then "-Infinity" else "Infinity")
  else if x.isZero then "0"
  else if x.isInteger ∧ x.integerPart < Nat.pow 10 21 then
    Decimal.sign x.negative ++ toString x.integerPart
  else x.shortest.positional

/-- The text of a number in JSON output. Numbers from `10 ^ -5` up to `10 ^ 16` are positional and
keep one digit after the point; JSON has no spelling for NaN and the infinities. -/
def jsonText (x : Double) : String :=
  if ¬ x.isFinite then "null"
  else if x.isZero then Decimal.sign x.negative ++ "0.0"
  else
    let decimal := x.shortest
    -- the number of digits in front of the point, negative if zeros follow the point
    let point : Int := (Decimal.digitsOf decimal.digits).length + decimal.exponent
    if -5 < point ∧ point ≤ 16 then
      decimal.positional ++ (if 0 ≤ decimal.exponent then ".0" else "")
    else decimal.scientific

end Double

end ShapeCheck
