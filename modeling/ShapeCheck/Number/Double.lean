set_option autoImplicit false

/-! # Double-precision numbers as bit patterns

A `Double` is the 64 bits of an IEEE-754 binary number. Two of them are the same number literal
exactly when their bits agree, so `DecidableEq` tells `0` from `-0` and finds a NaN equal to itself;
the comparison of a running program is `Double.equals`, where it is the other way round. Every
operation is arithmetic on natural numbers, so a statement about all doubles can be computed.

Main facts: `Double.equals_self_iff` (only a NaN differs from itself) and
`Double.magnitude_lt` (without its sign a double is a number below `2 ^ 63`).
-/

namespace ShapeCheck

/-- A double-precision number, given by its bits. -/
structure Double where
  /-- The sign, the exponent field and the fraction, from the high bit down. -/
  bits : UInt64
  deriving DecidableEq, Repr, Inhabited

namespace Double

/-! ## Fields of the bit pattern -/

/-- The sign bit is set. -/
def negative (x : Double) : Bool := Nat.pow 2 63 ≤ x.bits.toNat

/-- The bits without the sign: among positive doubles a greater number is a greater pattern. -/
def magnitude (x : Double) : Nat := x.bits.toNat % Nat.pow 2 63

/-- The pattern of the infinities without their sign. -/
def infiniteMagnitude : Nat := 2047 * Nat.pow 2 52

/-- The double with the given sign and the given bits below it. -/
def ofMagnitude (negative : Bool) (magnitude : Nat) : Double :=
  ⟨UInt64.ofNat ((if negative then Nat.pow 2 63 else 0) + magnitude)⟩

/-- The number zero, without a sign. -/
def zero : Double := ⟨0⟩

/-- The one NaN that this library makes. -/
def nan : Double := ⟨0x7ff8000000000000⟩

/-- Not a number: all exponent bits are set, and some bit of the fraction. -/
def isNaN (x : Double) : Bool := infiniteMagnitude < x.magnitude

/-- One of the two infinities. -/
def isInfinite (x : Double) : Bool := x.magnitude == infiniteMagnitude

/-- A number other than NaN and the infinities. -/
def isFinite (x : Double) : Bool := x.magnitude < infiniteMagnitude

/-- Either zero. -/
def isZero (x : Double) : Bool := x.magnitude == 0

/-- The significand of a finite double: `|x| = significand * 2 ^ scale`. -/
def significand (x : Double) : Nat :=
  if x.magnitude / Nat.pow 2 52 = 0 then x.magnitude else Nat.pow 2 52 + x.magnitude % Nat.pow 2 52

/-- The power of two of a finite double's last place. -/
def scale (x : Double) : Int :=
  if x.magnitude / Nat.pow 2 52 = 0 then -1074 else (x.magnitude / Nat.pow 2 52 : Nat) - 1075

theorem magnitude_lt (x : Double) : x.magnitude < Nat.pow 2 63 := Nat.mod_lt _ (by decide)

/-! ## Comparison -/

/-- Where a double other than NaN stands on the number line; both zeros stand at `0`. -/
def rank (x : Double) : Int := if x.negative then -(x.magnitude : Int) else x.magnitude

/-- Numeric equality: the zeros are equal, and a NaN equals nothing. -/
def equals (x y : Double) : Bool := !x.isNaN && !y.isNaN && x.rank == y.rank

/-- Numeric order; false as soon as a NaN takes part. -/
def lt (x y : Double) : Bool := !x.isNaN && !y.isNaN && x.rank < y.rank

/-- Numeric order or equality; false as soon as a NaN takes part. -/
def le (x y : Double) : Bool := !x.isNaN && !y.isNaN && x.rank ≤ y.rank

theorem equals_self_iff (x : Double) : x.equals x = true ↔ x.isNaN = false := by
  simp [equals]

/-! ## Integers -/

/-- The value is an integer. -/
def isInteger (x : Double) : Bool :=
  x.isFinite &&
    match x.scale with
    | .ofNat _ => true
    | .negSucc k => x.significand % Nat.pow 2 (k + 1) == 0

/-- The integer part of the absolute value; `0` where there is none. -/
def integerPart (x : Double) : Nat :=
  if x.isFinite then
    match x.scale with
    | .ofNat k => x.significand * Nat.pow 2 k
    | .negSucc k => x.significand / Nat.pow 2 (k + 1)
  else 0

/-- The value is an integer that is not negative: it can name a position. -/
def isPosition (x : Double) : Bool := zero.le x && x.isInteger

/-- The largest position that a 64-bit machine word holds. -/
def lastPosition : Nat := Nat.pow 2 64 - 1

/-- The position that a double names: its integer part, cut off at the ends of a 64-bit word. -/
def toPosition (x : Double) : Nat :=
  if x.isNaN || x.negative then 0
  else if x.isInfinite then lastPosition
  else min x.integerPart lastPosition

/-! ## Rounding to the nearest double -/

/-- `num / den` rounded to a natural number, a half to the even neighbour. -/
def roundHalfEven (num den : Nat) : Nat :=
  let quotient := num / den
  let rest := 2 * (num % den)
  if rest < den then quotient
  else if rest = den then quotient + quotient % 2
  else quotient + 1

/-- `num / (den * 2 ^ q)`, as a fraction of natural numbers. -/
def scaled (num den : Nat) (q : Int) : Nat × Nat :=
  match q with
  | .ofNat k => (num, den * Nat.pow 2 k)
  | .negSucc k => (num * Nat.pow 2 (k + 1), den)

/-- The power of two of the last place of `num / den`: the one that leaves 53 bits before it,
or the least there is. -/
def placeOf (num den : Nat) : Int :=
  let guess : Int := max ((num.log2 : Int) - den.log2 - 52) (-1074)
  let (n, d) := scaled num den guess
  -- the logarithms are cut off, so the guess may leave one bit too few
  if n / d < Nat.pow 2 52 then max (guess - 1) (-1074) else guess

/-- The double nearest to `± num / den`, a half going to the even neighbour; numbers beyond the
largest double become infinite. -/
def ofRatio (negative : Bool) (num den : Nat) : Double :=
  if num = 0 then ofMagnitude negative 0
  else
    let place := placeOf num den
    let (n, d) := scaled num den place
    -- the hidden bit of a normal significand adds the one by which its exponent field is short,
    -- and a significand that is rounded up to the next power of two carries into the field
    let pattern := (place + 1074).toNat * Nat.pow 2 52 + roundHalfEven n d
    ofMagnitude negative (min pattern infiniteMagnitude)

/-- The double nearest to a natural number. -/
def ofNat (n : Nat) : Double := ofRatio false n 1

end Double

end ShapeCheck
