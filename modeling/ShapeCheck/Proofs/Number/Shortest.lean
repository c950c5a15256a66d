import ShapeCheck.Proofs.Number.Spacing

set_option autoImplicit false

/-! # The shortest digits read back

The decimal number that is chosen for a finite double rounds to this double: a neighbour on a decimal
grid is taken only if it lies in the rounding interval, and the grid of seventeen digits is so fine
that some neighbour does.

Main fact: `Double.rounds_shortest`.
-/

namespace ShapeCheck

namespace Double

/-! ## Fractions -/

/-- The denominator of a rescaled number. -/
def denominator (p k : Int) : Nat := Nat.pow 2 (-p).toNat * Nat.pow 10 k.toNat

theorem rescale_snd (n : Nat) (p k : Int) : (rescale n p k).2 = denominator p k := rfl

theorem denominator_pos (p k : Int) : 0 < denominator p k :=
  Nat.mul_pos (Nat.pow_pos (by decide)) (Nat.pow_pos (by decide))

theorem zpow_eq_toNat (b : ℚ) (positive : 0 < b) (p : Int) :
    b ^ p * b ^ (-p).toNat = b ^ p.toNat := by
  rw [← zpow_natCast, ← zpow_natCast, ← zpow_add₀ positive.ne']
  congr 1
  omega

/-- A rescaled number is a multiple of its denominator. -/
theorem rescale_fst (n : Nat) (p k : Int) :
    ((rescale n p k).1 : ℚ) * 10 ^ k = n * 2 ^ p * denominator p k := by
  have two := zpow_eq_toNat 2 (by norm_num) p
  have ten := zpow_eq_toNat 10 (by norm_num) k
  show ((n * 2 ^ p.toNat * 10 ^ (-k).toNat : ℕ) : ℚ) * 10 ^ k =
    n * 2 ^ p * ((2 ^ (-p).toNat * 10 ^ k.toNat : ℕ) : ℚ)
  push_cast
  rw [← two, ← ten]
  ring

theorem rescale_le_iff (n : Nat) (p k : Int) (q : Nat) :
    (rescale n p k).1 ≤ q * denominator p k ↔ (n : ℚ) * 2 ^ p ≤ q * 10 ^ k := by
  have ten : (0 : ℚ) < 10 ^ k := by positivity
  have positive : (0 : ℚ) < denominator p k := by exact_mod_cast denominator_pos p k
  rw [← Nat.cast_le (α := ℚ), ← mul_le_mul_iff_left₀ ten, rescale_fst]
  push_cast
  rw [mul_right_comm (q : ℚ), mul_le_mul_iff_left₀ positive]

theorem le_rescale_iff (n : Nat) (p k : Int) (q : Nat) :
    q * denominator p k ≤ (rescale n p k).1 ↔ (q : ℚ) * 10 ^ k ≤ n * 2 ^ p := by
  have ten : (0 : ℚ) < 10 ^ k := by positivity
  have positive : (0 : ℚ) < denominator p k := by exact_mod_cast denominator_pos p k
  rw [← Nat.cast_le (α := ℚ), ← mul_le_mul_iff_left₀ ten, rescale_fst]
  push_cast
  rw [mul_right_comm (q : ℚ), mul_le_mul_iff_left₀ positive]

theorem rescale_add (m n : Nat) (p k : Int) :
    (rescale (m + n) p k).1 = (rescale m p k).1 + (rescale n p k).1 := by
  simp only [rescale, Nat.add_mul]

/-! ## Neighbours on a decimal grid -/

section
variable {x : Double} (positive : x.magnitude ≠ 0) {k : Int} {digits : Nat}
include positive

theorem below_le_value : x.interval.below ≤ x.interval.value := by
  have ne : x.significand ≠ 0 := by
    rw [significand_eq]
    unfold significandOf
    simp only [show Nat.pow 2 52 = 4503599627370496 from rfl]
    split <;> omega
  simp only [interval]
  split <;> omega

/-- A grid point rounds to a double if it is within the gaps on both sides. -/
theorem rounds_of_between
    (low : if x.interval.closed then
      (rescale (x.interval.value - x.interval.below) x.interval.scale k).1 ≤
        digits * denominator x.interval.scale k
      else (rescale (x.interval.value - x.interval.below) x.interval.scale k).1 <
        digits * denominator x.interval.scale k)
    (high : if x.interval.closed then
      digits * denominator x.interval.scale k ≤
        (rescale (x.interval.value + x.interval.above) x.interval.scale k).1
      else digits * denominator x.interval.scale k <
        (rescale (x.interval.value + x.interval.above) x.interval.scale k).1) :
    Rounds (digits * 10 ^ k) x.magnitude := by
  have lowEq : middle (x.magnitude - 1) =
      ((x.interval.value - x.interval.below : ℕ) : ℚ) * 2 ^ x.interval.scale := by
    rw [middle_pred_eq x positive, Nat.cast_sub (below_le_value positive)]
  have highEq : middle x.magnitude =
      ((x.interval.value + x.interval.above : ℕ) : ℚ) * 2 ^ x.interval.scale := by
    rw [middle_eq]
    push_cast
    rfl
  cases even : x.interval.closed with
  | true =>
    rw [even, if_pos rfl] at low high
    refine ⟨positive, ?_, ?_, fun odd => ?_⟩
    · rw [lowEq]
      exact (rescale_le_iff _ _ _ _).1 low
    · rw [highEq]
      exact (le_rescale_iff _ _ _ _).1 high
    · rw [← significandOf_mod_two, ← significand_eq] at odd
      exact absurd (beq_iff_eq.1 even) odd
  | false =>
    rw [even, if_neg Bool.false_ne_true] at low high
    have inside : middle (x.magnitude - 1) < digits * 10 ^ k ∧
        digits * 10 ^ k < middle x.magnitude := by
      rw [lowEq, highEq, ← not_le, ← not_le, ← le_rescale_iff, ← rescale_le_iff, not_le, not_le]
      exact ⟨low, high⟩
    exact ⟨positive, inside.1.le, inside.2.le, fun _ => inside⟩

omit positive in
/-- What is found on a grid is one of the two neighbours, and within the gap on its side. -/
theorem onGrid?_eq_some (h : x.onGrid? k = some digits) :
    let d := denominator x.interval.scale k
    let n := (rescale x.interval.value x.interval.scale k).1
    let gapBelow := (rescale x.interval.below x.interval.scale k).1
    let gapAbove := (rescale x.interval.above x.interval.scale k).1
    (digits = n / d ∧ if x.interval.closed then n % d ≤ gapBelow else n % d < gapBelow) ∨
      (digits = n / d + 1 ∧
        if x.interval.closed then d - n % d ≤ gapAbove else d - n % d < gapAbove) := by
  unfold onGrid? at h
  simp only [rescale_snd] at h
  dsimp only
  split at h
  · rename_i even
    simp only [even, if_true]
    split at h
    · rename_i fits
      exact .inl ⟨(Option.some.inj h).symm, fits.1⟩
    · split at h
      · rename_i fits
        exact .inr ⟨(Option.some.inj h).symm, fits⟩
      · cases h
  · rename_i even
    simp only [even, Bool.false_eq_true, if_false]
    split at h
    · rename_i fits
      exact .inl ⟨(Option.some.inj h).symm, fits.1⟩
    · split at h
      · rename_i fits
        exact .inr ⟨(Option.some.inj h).symm, fits⟩
      · cases h

/-- What is found on a grid rounds to the double. -/
theorem rounds_of_onGrid? (h : x.onGrid? k = some digits) :
    Rounds (digits * 10 ^ k) x.magnitude := by
  have whole : (rescale x.interval.value x.interval.scale k).1 =
      (rescale (x.interval.value - x.interval.below) x.interval.scale k).1 +
        (rescale x.interval.below x.interval.scale k).1 := by
    rw [← rescale_add, Nat.sub_add_cancel (below_le_value positive)]
  have sum := rescale_add x.interval.value x.interval.above x.interval.scale k
  have gapBelow : 0 < (rescale x.interval.below x.interval.scale k).1 := by
    refine Nat.mul_pos (Nat.mul_pos ?_ (Nat.pow_pos (by decide))) (Nat.pow_pos (by decide))
    simp only [interval]
    split <;> decide
  have gapAbove : 0 < (rescale x.interval.above x.interval.scale k).1 := by
    refine Nat.mul_pos (Nat.mul_pos ?_ (Nat.pow_pos (by decide))) (Nat.pow_pos (by decide))
    exact Nat.two_pos
  have divided := Nat.div_add_mod' (rescale x.interval.value x.interval.scale k).1
    (denominator x.interval.scale k)
  have rest := Nat.mod_lt (rescale x.interval.value x.interval.scale k).1
    (denominator_pos x.interval.scale k)
  rcases onGrid?_eq_some h with ⟨rfl, fits⟩ | ⟨rfl, fits⟩
  · refine rounds_of_between positive ?_ ?_ <;> split <;> rename_i even
    · rw [if_pos even] at fits
      omega
    · rw [if_neg even] at fits
      omega
    · omega
    · omega
  · refine rounds_of_between positive ?_ ?_ <;> rw [Nat.succ_mul] <;> split <;> rename_i even
    · omega
    · omega
    · rw [if_pos even] at fits
      omega
    · rw [if_neg even] at fits
      omega

omit positive in
/-- A grid that is finer than the gaps together has a point within one of them. -/
theorem onGrid?_ne_none
    (fine : denominator x.interval.scale k <
      (rescale (x.interval.below + x.interval.above) x.interval.scale k).1) :
    x.onGrid? k ≠ none := by
  intro none
  rw [rescale_add] at fine
  have rest := Nat.mod_lt (rescale x.interval.value x.interval.scale k).1
    (denominator_pos x.interval.scale k)
  unfold onGrid? at none
  simp only [rescale_snd] at none
  split at none <;> split at none
  · cases none
  · split at none
    · cases none
    · omega
  · cases none
  · split at none
    · cases none
    · omega

end

/-! ## The place of the first digit -/

theorem significand_pos {x : Double} (positive : x.magnitude ≠ 0) : 0 < x.significand := by
  rw [significand_eq]
  unfold significandOf
  simp only [show Nat.pow 2 52 = 4503599627370496 from rfl]
  split <;> omega

theorem significand_lt (x : Double) : x.significand < Nat.pow 2 53 := by
  rw [significand_eq]
  unfold significandOf
  simp only [show Nat.pow 2 52 = 4503599627370496 from rfl,
    show Nat.pow 2 53 = 9007199254740992 from rfl]
  split <;> omega

theorem scale_le {x : Double} (finite : x.isFinite = true) : x.scale ≤ 971 := by
  have small : x.magnitude < 2047 * Nat.pow 2 52 := of_decide_eq_true finite
  rw [scale_eq]
  unfold scaleOf
  simp only [show Nat.pow 2 52 = 4503599627370496 from rfl] at small ⊢
  split <;> omega

/-- The decimal logarithm of two is known well enough for all powers of two that occur. -/
theorem guess_le {b : Int} (low : -1074 ≤ b) (high : b ≤ 1023) :
    (10 : ℚ) ^ (b * 30103 / 100000 - 1) ≤ 2 ^ b := by
  generalize exponent : b * 30103 / 100000 - 1 = p
  have powers (m n : Nat) (root : m ≠ 0) (below : ((10 : ℚ) ^ m) ^ p ≤ (2 ^ n) ^ p)
      (small : n * p ≤ m * b) : (10 : ℚ) ^ p ≤ 2 ^ b := by
    refine (pow_le_pow_iff_left₀ (by positivity) (by positivity) root).1 ?_
    calc ((10 : ℚ) ^ p) ^ m = (10 ^ m) ^ p := by
          rw [← zpow_natCast, ← zpow_natCast, zpow_comm]
      _ ≤ (2 ^ n) ^ p := below
      _ = 2 ^ (n * p) := by rw [← zpow_natCast, ← zpow_mul]
      _ ≤ 2 ^ (m * b) := zpow_le_zpow_right₀ (by norm_num) small
      _ = (2 ^ b) ^ m := by rw [← zpow_natCast, ← zpow_mul, mul_comm]
  rcases le_or_gt 0 p with positive | negative
  · -- `10 ^ 59` is slightly less than `2 ^ 196`
    refine powers 59 196 (by decide) ?_ (by omega)
    exact zpow_le_zpow_left₀ positive (by norm_num) (by norm_num)
  · -- `10 ^ 28` is slightly more than `2 ^ 93`
    refine powers 28 93 (by decide) ?_ (by omega)
    rw [← inv_le_inv₀ (by positivity) (by positivity), ← zpow_neg, ← zpow_neg]
    exact zpow_le_zpow_left₀ (by omega) (by norm_num) (by norm_num)

/-- The guess is corrected downwards, or the double is at least the power of ten. -/
theorem leadingPlace_cases (x : Double) :
    let guess := ((x.significand.log2 : Int) + x.scale) * 30103 / 100000
    x.leadingPlace = guess - 1 ∨ ∃ q ∈ [(1, guess), (10, guess + 1)], x.leadingPlace = q.2 ∧
      q.1 * denominator x.scale guess ≤ (rescale x.significand x.scale guess).1 := by
  unfold leadingPlace
  dsimp only
  generalize ((x.significand.log2 : Int) + x.scale) * 30103 / 100000 = guess
  split
  · exact .inl rfl
  · rename_i notBelow
    split
    · rename_i above
      exact .inr ⟨(10, _), by simp, rfl, above⟩
    · refine .inr ⟨(1, _), by simp, rfl, ?_⟩
      rw [Nat.one_mul]
      exact Nat.le_of_not_lt notBelow

/-- A finite double is at least the power of ten of its first digit. -/
theorem leadingPlace_le {x : Double} (finite : x.isFinite = true) (positive : x.magnitude ≠ 0) :
    (10 : ℚ) ^ x.leadingPlace ≤ x.significand * 2 ^ x.scale := by
  have logarithm : x.significand.log2 < 53 :=
    (Nat.log2_lt (significand_pos positive).ne').2 (significand_lt x)
  have power : (2 : ℚ) ^ ((x.significand.log2 : Int) + x.scale) ≤ x.significand * 2 ^ x.scale := by
    rw [zpow_add₀ (by norm_num), zpow_natCast]
    have below : (2 ^ x.significand.log2 : ℚ) ≤ x.significand := by
      exact_mod_cast Nat.log2_self_le (significand_pos positive).ne'
    gcongr
  have floor := le_scaleOf x.magnitude
  rw [← scale_eq] at floor
  have ceiling := scale_le finite
  rcases leadingPlace_cases x with place | ⟨q, listed, place, above⟩ <;> rw [place]
  · exact (guess_le (by omega) (by omega)).trans power
  · rw [le_rescale_iff] at above
    rcases List.mem_pair.1 listed with rfl | rfl
    · rwa [Nat.cast_one, one_mul] at above
    · rwa [Nat.cast_ofNat, ← zpow_one_add₀ (by norm_num), add_comm] at above

/-- Seventeen digits are enough. -/
theorem onGrid?_last {x : Double} (finite : x.isFinite = true) (positive : x.magnitude ≠ 0) :
    x.onGrid? (x.leadingPlace - 16) ≠ none := by
  refine onGrid?_ne_none ?_
  have leading := leadingPlace_le finite positive
  rw [← not_le, ← Nat.one_mul (denominator _ _), rescale_le_iff, not_le, Nat.cast_one, one_mul]
  have gaps : 4 * x.significand < (x.interval.below + x.interval.above) * 10 ^ 16 := by
    have bound := significand_lt x
    simp only [interval]
    simp only [show Nat.pow 2 52 = 4503599627370496 from rfl,
      show Nat.pow 2 53 = 9007199254740992 from rfl] at bound ⊢
    split <;> omega
  have gapsCast : (4 * x.significand : ℚ) < (x.interval.below + x.interval.above : ℕ) * 10 ^ 16 := by
    exact_mod_cast gaps
  have gap : (0 : ℚ) < 2 ^ x.scale := by positivity
  calc (10 : ℚ) ^ (x.leadingPlace - 16)
      = 10 ^ x.leadingPlace / 10 ^ 16 := by
        rw [zpow_sub₀ (by norm_num)]
        norm_num
    _ ≤ x.significand * 2 ^ x.scale / 10 ^ 16 := by gcongr
    _ < (x.interval.below + x.interval.above : ℕ) * 2 ^ x.interval.scale := by
        rw [show x.interval.scale = x.scale - 2 from rfl, zpow_sub₀ (by norm_num), div_lt_iff₀ (by positivity)]
        nlinarith

/-! ## The chosen digits -/

theorem dropZeros_value (fuel digits : Nat) (exponent : Int) :
    ((dropZeros fuel digits exponent).1 : ℚ) * 10 ^ (dropZeros fuel digits exponent).2 =
      digits * 10 ^ exponent := by
  induction fuel generalizing digits exponent with
  | zero => rfl
  | succ fuel ih =>
    unfold dropZeros
    split
    · rename_i final
      have whole : (digits : ℚ) = (digits / 10 : ℕ) * 10 := by
        exact_mod_cast (Nat.div_mul_cancel (Nat.dvd_of_mod_eq_zero final.1)).symm
      rw [ih, zpow_add_one₀ (by norm_num), whole]
      ring
    · rfl

/-- The shortest decimal number rounds to the double. -/
theorem rounds_shortest {x : Double} (finite : x.isFinite = true) (positive : x.magnitude ≠ 0) :
    x.shortest.negative = x.negative ∧
      Rounds (x.shortest.digits * 10 ^ x.shortest.exponent) x.magnitude := by
  have notZero : ¬ x.isZero = true := by simpa [isZero] using positive
  unfold shortest
  rw [if_neg notZero]
  dsimp only
  split
  · rename_i digits k found
    obtain ⟨place, -, made⟩ := List.exists_of_findSome?_eq_some found
    obtain ⟨_, here, same⟩ := Option.map_eq_some_iff.1 made
    obtain ⟨rfl, rfl⟩ := Prod.mk.inj same
    refine ⟨rfl, ?_⟩
    rw [dropZeros_value]
    exact rounds_of_onGrid? positive here
  · rename_i none
    have last : x.leadingPlace - 16 ∈
        (List.range maxDigits).map fun count : Nat => x.leadingPlace - (count : Int) :=
      List.mem_map.2 ⟨16, by decide, rfl⟩
    have missing := List.findSome?_eq_none_iff.1 none _ last
    exact absurd (Option.map_eq_none_iff.1 missing) (onGrid?_last finite positive)

end Double

end ShapeCheck
