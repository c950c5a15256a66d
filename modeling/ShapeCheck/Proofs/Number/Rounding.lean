import ShapeCheck.Number.Decimal
import ShapeCheck.Proofs.Number.Spacing

set_option autoImplicit false

/-! # Fractions are rounded to the nearest double

The last place of a fraction is found from the logarithms of its two parts, such that 53 bits stand
before it, or fewer if it is the last place of the least doubles. Rounded to this place the fraction is
the significand of the double in whose rounding interval it lies.

Main facts: `Double.ofRatio_of_rounds` and `Decimal.toDouble_of_rounds` (a number that rounds to a double
is read as this double).
-/

namespace ShapeCheck

namespace Double

/-! ## Rounding to a natural number -/

/-- The rounded number is at most a half away, and even if it is exactly a half away. -/
theorem roundHalfEven_spec (num : Nat) {den : Nat} (positive : 0 < den) :
    let k := roundHalfEven num den
    2 * num ≤ (2 * k + 1) * den ∧ 2 * k * den ≤ 2 * num + den ∧
      (k % 2 = 1 → 2 * num < (2 * k + 1) * den ∧ 2 * k * den < 2 * num + den) := by
  have division := Nat.div_add_mod num den
  have rest := Nat.mod_lt num positive
  unfold roundHalfEven
  dsimp only
  generalize num / den = q at division ⊢
  generalize num % den = r at division rest ⊢
  have whole : num = q * den + r := by rw [← division, Nat.mul_comm]
  split
  · have up : (2 * q + 1) * den = 2 * (q * den) + den := by ring
    have down : 2 * q * den = 2 * (q * den) := by ring
    exact ⟨by omega, by omega, fun _ => ⟨by omega, by omega⟩⟩
  · split
    · -- exactly a half: the even neighbour
      rcases Nat.mod_two_eq_zero_or_one q with even | odd
      · have up : (2 * (q + q % 2) + 1) * den = 2 * (q * den) + den := by rw [even]; ring
        have down : 2 * (q + q % 2) * den = 2 * (q * den) := by rw [even]; ring
        exact ⟨by omega, by omega, fun _ => by omega⟩
      · have up : (2 * (q + q % 2) + 1) * den = 2 * (q * den) + 3 * den := by rw [odd]; ring
        have down : 2 * (q + q % 2) * den = 2 * (q * den) + 2 * den := by rw [odd]; ring
        exact ⟨by omega, by omega, fun _ => by omega⟩
    · have up : (2 * (q + 1) + 1) * den = 2 * (q * den) + 3 * den := by ring
      have down : 2 * (q + 1) * den = 2 * (q * den) + 2 * den := by ring
      exact ⟨by omega, by omega, fun _ => ⟨by omega, by omega⟩⟩

/-! ## The last place of a fraction -/

section
variable {num den : Nat}

theorem scaled_snd_pos (positive : 0 < den) (q : Int) : 0 < (scaled num den q).2 := by
  cases q with
  | ofNat k => exact Nat.mul_pos positive (Nat.pow_pos (by decide))
  | negSucc k => exact positive

/-- A scaled fraction is a number of places. -/
theorem scaled_eq (q : Int) :
    ((scaled num den q).1 : ℚ) / (scaled num den q).2 * 2 ^ q = num / den := by
  cases q with
  | ofNat k =>
    have power : (2 : ℚ) ^ k ≠ 0 := by positivity
    show (num : ℚ) / ((den * 2 ^ k : ℕ) : ℚ) * 2 ^ (k : Int) = num / den
    push_cast
    rw [zpow_natCast, ← div_div, div_mul_cancel₀ _ power]
  | negSucc k =>
    have power : (2 : ℚ) ^ (k + 1) ≠ 0 := by positivity
    show ((num * 2 ^ (k + 1) : ℕ) : ℚ) / den * 2 ^ Int.negSucc k = num / den
    push_cast
    rw [zpow_negSucc, mul_div_right_comm, mul_inv_cancel_right₀ power]

/-- A fraction lies between the powers of two that the logarithms of its parts tell. -/
theorem ratio_bounds (some : num ≠ 0) (positive : den ≠ 0) :
    (2 : ℚ) ^ ((num.log2 : Int) - den.log2 - 1) < num / den ∧
      (num : ℚ) / den < 2 ^ ((num.log2 : Int) - den.log2 + 1) := by
  have numLow : (2 : ℚ) ^ num.log2 ≤ num := by exact_mod_cast Nat.log2_self_le some
  have numHigh : (num : ℚ) < 2 ^ (num.log2 + 1) := by exact_mod_cast Nat.lt_log2_self
  have denLow : (2 : ℚ) ^ den.log2 ≤ den := by exact_mod_cast Nat.log2_self_le positive
  have denHigh : (den : ℚ) < 2 ^ (den.log2 + 1) := by exact_mod_cast Nat.lt_log2_self
  have denPos : (0 : ℚ) < den := by exact_mod_cast Nat.pos_of_ne_zero positive
  constructor
  · rw [lt_div_iff₀ denPos]
    calc (2 : ℚ) ^ ((num.log2 : Int) - den.log2 - 1) * den
        < 2 ^ ((num.log2 : Int) - den.log2 - 1) * 2 ^ (den.log2 + 1) := by gcongr
      _ = 2 ^ num.log2 := by
          rw [← zpow_natCast, ← zpow_natCast, ← zpow_add₀ (by norm_num)]
          congr 1
          push_cast
          ring
      _ ≤ num := numLow
  · rw [div_lt_iff₀ denPos]
    calc (num : ℚ) < 2 ^ (num.log2 + 1) := numHigh
      _ = 2 ^ ((num.log2 : Int) - den.log2 + 1) * 2 ^ den.log2 := by
          rw [← zpow_natCast, ← zpow_natCast, ← zpow_add₀ (by norm_num)]
          congr 1
          push_cast
          ring
      _ ≤ 2 ^ ((num.log2 : Int) - den.log2 + 1) * den := by gcongr

/-- The chosen place leaves at most 53 bits, and exactly 53 unless it is the least place. -/
theorem placeOf_spec (some : num ≠ 0) (positive : den ≠ 0) :
    -1074 ≤ placeOf num den ∧ (num : ℚ) / den < 2 ^ 53 * 2 ^ placeOf num den ∧
      (placeOf num den = -1074 ∨ 2 ^ 52 * (2 : ℚ) ^ placeOf num den ≤ num / den) := by
  obtain ⟨low, high⟩ := ratio_bounds some positive
  have denPos : (0 : ℚ) < den := by exact_mod_cast Nat.pos_of_ne_zero positive
  unfold placeOf
  generalize logs : (num.log2 : Int) - den.log2 - 52 = e
  dsimp only
  have floor : -1074 ≤ max e (-1074) := le_max_right _ _
  have ceiling : (num : ℚ) / den < 2 ^ 53 * 2 ^ max e (-1074) := by
    have exponent : (num.log2 : Int) - den.log2 + 1 ≤ 53 + max e (-1074) := by omega
    calc (num : ℚ) / den < 2 ^ ((num.log2 : Int) - den.log2 + 1) := high
      _ ≤ 2 ^ (53 + max e (-1074)) := zpow_le_zpow_right₀ (by norm_num) exponent
      _ = 2 ^ 53 * 2 ^ max e (-1074) := by
          rw [zpow_add₀ (by norm_num)]
          norm_num
  generalize place : max e (-1074) = g at floor ceiling
  have scaledPos : (0 : ℚ) < (scaled num den g).2 := by
    exact_mod_cast scaled_snd_pos (Nat.pos_of_ne_zero positive) g
  have unit : (0 : ℚ) < 2 ^ g := by positivity
  have whole : ((scaled num den g).1 : ℚ) / (scaled num den g).2 * 2 ^ g = num / den := scaled_eq g
  split
  · -- fewer than 53 bits: one place further down
    rename_i few
    have below : ((scaled num den g).1 : ℚ) < 2 ^ 52 * (scaled num den g).2 := by
      exact_mod_cast (Nat.div_lt_iff_lt_mul (scaled_snd_pos (Nat.pos_of_ne_zero positive) g)).1 few
    have less : (num : ℚ) / den < 2 ^ 52 * 2 ^ g := by
      rw [← whole]
      gcongr
      rwa [div_lt_iff₀ scaledPos]
    by_cases least : g = -1074
    · subst least
      refine ⟨by decide, ?_, .inl rfl⟩
      show (num : ℚ) / den < 2 ^ 53 * 2 ^ (-1074 : Int)
      exact ceiling
    · have next : max (g - 1) (-1074) = g - 1 := by omega
      have half : (2 : ℚ) ^ 53 * 2 ^ (g - 1) = 2 ^ 52 * 2 ^ g := by
        rw [zpow_sub_one₀ (by norm_num)]
        ring
      rw [next]
      refine ⟨by omega, half ▸ less, .inr ?_⟩
      have guess : g = e := by omega
      calc (2 : ℚ) ^ 52 * 2 ^ (g - 1) = 2 ^ ((52 : Int) + (g - 1)) := by
            rw [zpow_add₀ (by norm_num)]
            norm_num
        _ = 2 ^ ((num.log2 : Int) - den.log2 - 1) := by
            congr 1
            omega
        _ ≤ num / den := low.le
  · rename_i enough
    have above : (2 : ℚ) ^ 52 * (scaled num den g).2 ≤ (scaled num den g).1 := by
      exact_mod_cast (Nat.le_div_iff_mul_le (scaled_snd_pos (Nat.pos_of_ne_zero positive) g)).1
        (Nat.le_of_not_lt enough)
    refine ⟨floor, ceiling, .inr ?_⟩
    rw [← whole]
    gcongr
    rwa [le_div_iff₀ scaledPos]

end

/-! ## Patterns -/

/-- The number of a bit pattern that is made up of a place and a significand at this place: fewer than
53 bits occur at the least place only, and `2 ^ 53` is a power of two in the next field. -/
theorem absolute_pattern {p k : Nat} (bits : p = 0 ∨ Nat.pow 2 52 ≤ k) (small : k ≤ Nat.pow 2 53) :
    absolute (p * Nat.pow 2 52 + k) = k * 2 ^ ((p : Int) - 1074) := by
  simp only [show Nat.pow 2 52 = 4503599627370496 from rfl,
    show Nat.pow 2 53 = 9007199254740992 from rfl] at bits small ⊢
  unfold absolute significandOf scaleOf
  simp only [show Nat.pow 2 52 = 4503599627370496 from rfl]
  rcases Nat.lt_or_ge k 4503599627370496 with few | enough
  · obtain rfl : p = 0 := by omega
    have field : (0 * 4503599627370496 + k) / 4503599627370496 = 0 := by omega
    rw [if_pos field, if_pos field]
    simp
  · rcases Nat.lt_or_ge k 9007199254740992 with inside | full
    · have field : (p * 4503599627370496 + k) / 4503599627370496 = p + 1 := by omega
      have fraction : 4503599627370496 + (p * 4503599627370496 + k) % 4503599627370496 = k := by omega
      have exponent : ((p + 1 : ℕ) : Int) - 1075 = (p : Int) - 1074 := by omega
      rw [field, if_neg (Nat.succ_ne_zero p), if_neg (Nat.succ_ne_zero p), fraction, exponent]
    · obtain rfl : k = 9007199254740992 := by omega
      have field : (p * 4503599627370496 + 9007199254740992) / 4503599627370496 = p + 2 := by omega
      have fraction : (p * 4503599627370496 + 9007199254740992) % 4503599627370496 = 0 := by omega
      have exponent : ((p + 2 : ℕ) : Int) - 1075 = (p : Int) - 1074 + 1 := by omega
      rw [field, if_neg (by omega), if_neg (by omega), fraction, exponent, zpow_add_one₀ (by norm_num)]
      push_cast
      ring

/-- The gap above such a pattern is at least one place, and the gap below is one place, unless the
significand is the least one of 53 bits. -/
theorem scaleOf_pattern {p k : Nat} (bits : p = 0 ∨ Nat.pow 2 52 ≤ k) (small : k ≤ Nat.pow 2 53) :
    (p : Int) - 1074 ≤ scaleOf (p * Nat.pow 2 52 + k) ∧
      (scaleOf (p * Nat.pow 2 52 + k - 1) = (p : Int) - 1074 ∨
        k = Nat.pow 2 52 ∧ p ≠ 0 ∧ scaleOf (p * Nat.pow 2 52 + k - 1) = (p : Int) - 1075) := by
  simp only [show Nat.pow 2 52 = 4503599627370496 from rfl,
    show Nat.pow 2 53 = 9007199254740992 from rfl] at bits small ⊢
  unfold scaleOf
  simp only [show Nat.pow 2 52 = 4503599627370496 from rfl]
  constructor
  · split <;> omega
  · split <;> omega

/-- A positive number is a significand at a place, up to half of a place; an odd significand is nearer
still. Then the number rounds to the bit pattern made up of the two. -/
theorem rounds_pattern {p k : Nat} (bits : p = 0 ∨ Nat.pow 2 52 ≤ k) (small : k ≤ Nat.pow 2 53) {r : ℚ}
    (some : p * Nat.pow 2 52 + k ≠ 0) (least : k = Nat.pow 2 52 → p ≠ 0 → (k : ℚ) ≤ r)
    (low : (k : ℚ) - 1 / 2 ≤ r) (high : r ≤ k + 1 / 2)
    (odd : k % 2 = 1 → (k : ℚ) - 1 / 2 < r ∧ r < k + 1 / 2) :
    Rounds (r * 2 ^ ((p : Int) - 1074)) (p * Nat.pow 2 52 + k) := by
  have value := absolute_pattern bits small
  obtain ⟨above, below⟩ := scaleOf_pattern bits small
  have unit : (0 : ℚ) < 2 ^ ((p : Int) - 1074) := by positivity
  have parity : (p * Nat.pow 2 52 + k) % 2 = k % 2 := by
    simp only [show Nat.pow 2 52 = 4503599627370496 from rfl]
    omega
  generalize pattern : p * Nat.pow 2 52 + k = m at some value above below parity ⊢
  have gapAbove : (2 : ℚ) ^ ((p : Int) - 1074) ≤ 2 ^ scaleOf m := zpow_le_zpow_right₀ (by norm_num) above
  have upper : (k + 1 / 2) * (2 : ℚ) ^ ((p : Int) - 1074) ≤ middle m := by
    rw [middle, absolute_succ, value]
    linarith
  obtain ⟨n, rfl⟩ := Nat.exists_eq_succ_of_ne_zero some
  rw [Nat.succ_sub_one] at below
  have before : middle n = absolute (n + 1) - 2 ^ scaleOf n / 2 := by
    rw [middle, absolute_succ]
    ring
  have upward (strict : r < k + 1 / 2) : r * 2 ^ ((p : Int) - 1074) < middle (n + 1) :=
    (mul_lt_mul_of_pos_right strict unit).trans_le upper
  have upwards : r * 2 ^ ((p : Int) - 1074) ≤ middle (n + 1) :=
    (mul_le_mul_of_nonneg_right high unit.le).trans upper
  rcases below with same | ⟨first, notLeast, narrow⟩
  · have lower : middle n = (k - 1 / 2) * 2 ^ ((p : Int) - 1074) := by
      rw [before, value, same]
      ring
    refine ⟨some, ?_, upwards, fun isOdd => ?_⟩
    · rw [Nat.succ_sub_one, lower]
      exact mul_le_mul_of_nonneg_right low unit.le
    · obtain ⟨strictLow, strictHigh⟩ := odd (by omega)
      refine ⟨?_, upward strictHigh⟩
      rw [Nat.succ_sub_one, lower]
      exact mul_lt_mul_of_pos_right strictLow unit
  · -- below a power of two the gap is narrow, but the number is not below the power of two
    have gap : (0 : ℚ) < 2 ^ scaleOf n := by positivity
    have lower : middle n < r * 2 ^ ((p : Int) - 1074) := by
      have reaches := mul_le_mul_of_nonneg_right (least first notLeast) unit.le
      rw [before, value]
      linarith
    refine ⟨some, lower.le, upwards, fun isOdd => ⟨lower, upward (odd (by omega)).2⟩⟩

/-! ## Rounding -/

/-- A number that rounds to a double is more than half of the least double. -/
theorem Rounds.half_lt {q : ℚ} {m : Nat} (h : Rounds q m) : 1 / 2 * (2 : ℚ) ^ (-1074 : Int) < q := by
  have first : middle 0 = 1 / 2 * (2 : ℚ) ^ (-1074 : Int) := by
    have one : absolute (0 + 1) = 2 ^ (-1074 : Int) := by
      rw [absolute_succ, absolute_zero, zero_add]
      rfl
    rw [middle, absolute_zero, one]
    ring
  rw [← first]
  rcases Nat.lt_or_ge 1 m with more | one
  · exact (middle_strictMono (by omega)).trans_le h.low
  · obtain rfl : m = 1 := le_antisymm one (Nat.pos_of_ne_zero h.positive)
    exact (h.inside (by decide)).1

/-- A fraction that rounds to a double is rounded to this double. -/
theorem ofRatio_of_rounds {num den m : Nat} (positive : den ≠ 0) (rounds : Rounds ((num : ℚ) / den) m)
    (negative : Bool) :
    ofRatio negative num den = ofMagnitude negative (min m infiniteMagnitude) := by
  have some : num ≠ 0 := by
    rintro rfl
    have := rounds.pos
    simp at this
  obtain ⟨floor, few, bits⟩ := placeOf_spec some positive
  unfold ofRatio
  rw [if_neg some]
  dsimp only
  generalize place : placeOf num den = e at floor few bits
  have unit : (0 : ℚ) < 2 ^ e := by positivity
  have dPos : 0 < (scaled num den e).2 := scaled_snd_pos (Nat.pos_of_ne_zero positive) e
  have whole : ((scaled num den e).1 : ℚ) / (scaled num den e).2 * 2 ^ e = num / den := scaled_eq e
  obtain ⟨up, down, odd⟩ := roundHalfEven_spec (scaled num den e).1 dPos
  generalize (scaled num den e).1 = n at whole up down odd ⊢
  generalize (scaled num den e).2 = d at dPos whole up down odd ⊢
  generalize roundHalfEven n d = k at up down odd ⊢
  have dPos' : (0 : ℚ) < d := by exact_mod_cast dPos
  have ratio : (n : ℚ) / d * d = n := div_mul_cancel₀ _ dPos'.ne'
  generalize (n : ℚ) / d = r at whole ratio
  obtain ⟨p, rfl⟩ : ∃ p : Nat, e = (p : Int) - 1074 := ⟨(e + 1074).toNat, by omega⟩
  rw [← whole] at few bits rounds
  have low : (k : ℚ) - 1 / 2 ≤ r := by
    have cast : (2 * k * d : ℚ) ≤ 2 * n + d := by exact_mod_cast down
    rw [← ratio] at cast
    nlinarith
  have high : r ≤ k + 1 / 2 := by
    have cast : (2 * n : ℚ) ≤ (2 * k + 1) * d := by exact_mod_cast up
    rw [← ratio] at cast
    nlinarith
  have nearer (isOdd : k % 2 = 1) : (k : ℚ) - 1 / 2 < r ∧ r < k + 1 / 2 := by
    have castUp : (2 * n : ℚ) < (2 * k + 1) * d := by exact_mod_cast (odd isOdd).1
    have castDown : (2 * k * d : ℚ) < 2 * n + d := by exact_mod_cast (odd isOdd).2
    rw [← ratio] at castUp castDown
    exact ⟨by nlinarith, by nlinarith⟩
  have small : k ≤ Nat.pow 2 53 := by
    have below : r < 2 ^ 53 := (mul_lt_mul_iff_left₀ unit).1 few
    have near : (k : ℚ) < 2 ^ 53 + 1 := by linarith
    exact Nat.lt_succ_iff.1 (by exact_mod_cast near)
  have fully (notLeast : p ≠ 0) : (2 : ℚ) ^ 52 ≤ r := by
    rcases bits with least | enough
    · omega
    · exact (mul_le_mul_iff_left₀ unit).1 enough
  have enough : p = 0 ∨ Nat.pow 2 52 ≤ k := by
    refine (eq_or_ne p 0).imp_right fun notLeast => ?_
    have near : (2 : ℚ) ^ 52 < k + 1 := by linarith [fully notLeast]
    exact Nat.lt_succ_iff.1 (by exact_mod_cast near)
  have notZero : p * Nat.pow 2 52 + k ≠ 0 := by
    intro zero
    obtain ⟨rfl, rfl⟩ : p = 0 ∧ k = 0 := by
      simp only [show Nat.pow 2 52 = 4503599627370496 from rfl] at zero
      omega
    have tiny := (mul_lt_mul_iff_left₀ unit).1 rounds.half_lt
    norm_num at high tiny
    linarith
  have found : Rounds (r * 2 ^ ((p : Int) - 1074)) (p * Nat.pow 2 52 + k) := by
    refine rounds_pattern enough small notZero (fun first notLeast => ?_) low high nearer
    rw [first]
    exact_mod_cast fully notLeast
  have exponent : ((p : Int) - 1074 + 1074).toNat = p := by omega
  rw [exponent, rounds.unique found]

end Double

/-! ## Decimal numbers -/

namespace Decimal

/-- A number with some digits lies between two powers of ten. -/
theorem digitsOf_bounds {n : Nat} (positive : n ≠ 0) :
    (10 : ℚ) ^ (((digitsOf n).length : Int) - 1) ≤ n ∧ (n : ℚ) < 10 ^ ((digitsOf n).length : Int) := by
  obtain ⟨k, length⟩ := Nat.exists_eq_succ_of_ne_zero (digitsOf_length_pos n).ne'
  rw [length]
  constructor
  · have exponent : ((k + 1 : ℕ) : Int) - 1 = k := by omega
    rw [exponent, zpow_natCast]
    rcases Nat.eq_zero_or_pos k with rfl | more
    · exact_mod_cast Nat.pos_of_ne_zero positive
    · have long : ¬ (Nat.toDigits 10 n).length ≤ k := by
        have same : (Nat.toDigits 10 n).length = k + 1 := length
        omega
      rw [Nat.length_toDigits_le_iff (by decide) more] at long
      exact_mod_cast Nat.le_of_not_lt long
  · have short : (Nat.toDigits 10 n).length ≤ k + 1 := length.le
    rw [Nat.length_toDigits_le_iff (by decide) (Nat.succ_pos k)] at short
    rw [zpow_natCast]
    exact_mod_cast short

/-- Finite doubles end below the power of two behind the last field. -/
theorem lt_of_rounds {q : ℚ} {m : Nat} (rounds : Double.Rounds q m) (finite : m < Double.infiniteMagnitude) :
    q < 2 ^ (1024 : Int) := by
  have last : Double.absolute Double.infiniteMagnitude = 2 ^ (1024 : Int) := by
    have significand : Double.significandOf Double.infiniteMagnitude = Nat.pow 2 52 := by decide
    have scale : Double.scaleOf Double.infiniteMagnitude = 972 := by decide
    have power : ((Nat.pow 2 52 : ℕ) : ℚ) = 2 ^ (52 : Int) := by norm_num
    rw [Double.absolute, significand, scale, power, show (1024 : Int) = 52 + 972 from rfl,
      zpow_add₀ two_ne_zero]
  have next : Double.absolute (m + 1) ≤ Double.absolute Double.infiniteMagnitude :=
    Double.absolute_strictMono.monotone finite
  have here := Double.absolute_strictMono (Nat.lt_succ_self m)
  have high := rounds.high
  rw [Double.middle] at high
  rw [last] at next
  linarith

theorem two_zpow_le_ten_zpow : (2 : ℚ) ^ (1200 : Int) ≤ 10 ^ (400 : Int) := by
  rw [show (1200 : Int) = 3 * 400 from rfl, zpow_mul]
  exact zpow_le_zpow_left₀ (by decide) (by positivity) (by norm_num)

/-- A decimal number that rounds to a double is read as this double. -/
theorem toDouble_of_rounds {x : Decimal} {m : Nat}
    (rounds : Double.Rounds ((x.digits : ℚ) * 10 ^ x.exponent) m) (finite : m < Double.infiniteMagnitude) :
    x.toDouble = Double.ofMagnitude x.negative m := by
  have some : x.digits ≠ 0 := by
    intro zero
    have := rounds.pos
    simp [zero] at this
  obtain ⟨low, high⟩ := digitsOf_bounds some
  have unit : (0 : ℚ) < 10 ^ x.exponent := by positivity
  unfold toDouble
  dsimp only
  generalize ((digitsOf x.digits).length : Int) = length at low high ⊢
  have notTiny : ¬ (x.digits = 0 ∨ length + x.exponent < -400) := by
    rintro (zero | tiny)
    · exact some zero
    · have below : (x.digits : ℚ) * 10 ^ x.exponent < 10 ^ (-400 : Int) :=
        calc (x.digits : ℚ) * 10 ^ x.exponent < 10 ^ length * 10 ^ x.exponent := by gcongr
          _ = 10 ^ (length + x.exponent) := (zpow_add₀ (by norm_num) _ _).symm
          _ ≤ 10 ^ (-400 : Int) := zpow_le_zpow_right₀ (by norm_num) tiny.le
      have least : (10 : ℚ) ^ (-400 : Int) ≤ 2 ^ (-1075 : Int) := by
        rw [zpow_neg, zpow_neg]
        have power : (2 : ℚ) ^ (1075 : Int) ≤ 2 ^ (1200 : Int) :=
          zpow_le_zpow_right₀ (by norm_num) (by decide)
        exact inv_anti₀ (by positivity) (power.trans two_zpow_le_ten_zpow)
      have half : (2 : ℚ) ^ (-1075 : Int) = 1 / 2 * 2 ^ (-1074 : Int) := by
        rw [show (-1075 : Int) = -1074 - 1 from rfl, zpow_sub_one₀ (by norm_num)]
        ring
      have := rounds.half_lt
      linarith
  have notHuge : ¬ 400 < length + x.exponent := by
    intro huge
    have above : (10 : ℚ) ^ (400 : Int) ≤ x.digits * 10 ^ x.exponent :=
      calc (10 : ℚ) ^ (400 : Int) ≤ 10 ^ (length - 1 + x.exponent) :=
            zpow_le_zpow_right₀ (by norm_num) (by omega)
        _ = 10 ^ (length - 1) * 10 ^ x.exponent := zpow_add₀ (by norm_num) _ _
        _ ≤ x.digits * 10 ^ x.exponent := by gcongr
    have greatest : (2 : ℚ) ^ (1024 : Int) ≤ 2 ^ (1200 : Int) :=
      zpow_le_zpow_right₀ (by norm_num) (by decide)
    have least := greatest.trans (two_zpow_le_ten_zpow.trans above)
    exact absurd (lt_of_rounds rounds finite) (not_lt.2 least)
  rw [if_neg notTiny, if_neg notHuge]
  have whole : min m Double.infiniteMagnitude = m := min_eq_left finite.le
  cases exponent : x.exponent with
  | ofNat k =>
    have ratio : (x.digits : ℚ) * 10 ^ x.exponent = ((x.digits * Nat.pow 10 k : ℕ) : ℚ) / (1 : ℕ) := by
      rw [exponent, Int.ofNat_eq_natCast, zpow_natCast]
      simp
    rw [ratio] at rounds
    show Double.ofRatio x.negative (x.digits * Nat.pow 10 k) 1 = _
    rw [Double.ofRatio_of_rounds one_ne_zero rounds, whole]
  | negSucc k =>
    have ratio : (x.digits : ℚ) * 10 ^ x.exponent = (x.digits : ℚ) / (Nat.pow 10 (k + 1) : ℕ) := by
      rw [exponent, zpow_negSucc, div_eq_mul_inv]
      simp
    rw [ratio] at rounds
    show Double.ofRatio x.negative x.digits (Nat.pow 10 (k + 1)) = _
    have positive : Nat.pow 10 (k + 1) ≠ 0 := (Nat.pow_pos (by decide)).ne'
    rw [Double.ofRatio_of_rounds positive rounds, whole]

end Decimal

end ShapeCheck
