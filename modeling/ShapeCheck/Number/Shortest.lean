import ShapeCheck.Number.Decimal

set_option autoImplicit false

/-! # The fewest digits that read back

A finite double stands for the whole interval of reals that round to it. Among the decimal numbers
in this interval `Double.shortest` picks one with the fewest digits, and of those the one nearest to
the double. For each count of digits only the two neighbours of the double on that decimal grid need
a look: if any grid point lies in the interval, one of these two does.

All quantities are integers over one common denominator, so the choice is exact.
-/

namespace ShapeCheck

namespace Double

/-- A positive real `value / unit` with the interval of reals that round to it. -/
structure Interval where
  /-- Four times the significand, so that the halves and quarters below stay whole. -/
  value : Nat
  /-- Half of the gap to the next smaller double, on the scale of `value`. -/
  below : Nat
  /-- Half of the gap to the next greater double, on the scale of `value`. -/
  above : Nat
  /-- Both ends belong to the interval: a half rounds to an even significand. -/
  closed : Bool
  /-- The power of two by which all of the above are scaled. -/
  scale : Int

/-- The interval of a finite double. The gap below a power of two is half as wide as the one above,
unless the double is the least normal one. -/
def interval (x : Double) : Interval where
  value := 4 * x.significand
  below := if x.significand = Nat.pow 2 52 ∧ -1074 < x.scale then 1 else 2
  above := 2
  closed := x.significand % 2 == 0
  scale := x.scale - 2

/-- `n * 2 ^ p * 10 ^ -k` as a fraction. -/
def rescale (n : Nat) (p k : Int) : Nat × Nat :=
  (n * Nat.pow 2 p.toNat * Nat.pow 10 (-k).toNat, Nat.pow 2 (-p).toNat * Nat.pow 10 k.toNat)

/-- The power of ten of the first digit of a positive finite double. -/
def leadingPlace (x : Double) : Int :=
  -- 0.30103 is the decimal logarithm of two, so the guess is at most one off
  let guess := ((x.significand.log2 : Int) + x.scale) * 30103 / 100000
  let (n, d) := rescale x.significand x.scale guess
  if n < d then guess - 1 else if 10 * d ≤ n then guess + 1 else guess

/-- The neighbour of `x` on the grid of multiples of `10 ^ k` that lies in its interval, the nearer
one if both do and the greater one if they are equally near. -/
def onGrid? (x : Double) (k : Int) : Option Nat :=
  let i := x.interval
  let (n, d) := rescale i.value i.scale k
  let gapBelow := (rescale i.below i.scale k).1
  let gapAbove := (rescale i.above i.scale k).1
  let quotient := n / d
  let under := n % d
  let above := d - under
  -- the neighbours are `quotient` and `quotient + 1`; each fits if it is not beyond its gap
  let floorFits := if i.closed then under ≤ gapBelow else under < gapBelow
  let ceilingFits := if i.closed then above ≤ gapAbove else above < gapAbove
  -- of two that fit, the nearer; of two that are equally near, the greater
  if floorFits ∧ (under < above ∨ ¬ ceilingFits) then some quotient
  else if ceilingFits then some (quotient + 1)
  else none

/-- Drops the final zeros of a digit string, counting them into the exponent. -/
def dropZeros : Nat → Nat → Int → Nat × Int
  | 0, digits, exponent => (digits, exponent)
  | fuel + 1, digits, exponent =>
    if digits % 10 = 0 ∧ digits ≠ 0 then dropZeros fuel (digits / 10) (exponent + 1)
    else (digits, exponent)

/-- Seventeen digits always tell a double from every other one. -/
def maxDigits : Nat := 17

/-- The shortest decimal number that reads back as the finite double `x`, the nearest of those. -/
def shortest (x : Double) : Decimal :=
  if x.isZero then ⟨x.negative, 0, 0⟩
  else
    let top := x.leadingPlace
    let places := (List.range maxDigits).map fun (count : Nat) => top - (count : Int)
    match places.findSome? fun k => (x.onGrid? k).map fun digits => (digits, k) with
    | some (digits, k) =>
      let (digits, exponent) := dropZeros maxDigits digits k
      ⟨x.negative, digits, exponent⟩
    | none => ⟨x.negative, 0, 0⟩

end Double

end ShapeCheck
