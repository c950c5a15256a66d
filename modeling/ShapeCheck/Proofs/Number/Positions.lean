import ShapeCheck.Proofs.Number.Numeral
import ShapeCheck.Proofs.Number.Rounding

set_option autoImplicit false

/-! # Positions as doubles

Every number below `2 ^ 53` is a double, so up to there a position that is written as a double names
itself, and positions are in the same order as their doubles. Greater numbers may be rounded, but not to
one below `2 ^ 53`.

Main facts: `Double.toPosition_ofNat` and `Double.le_ofNat`.
-/

namespace ShapeCheck

namespace Double

/-- The pattern of the double `2 ^ 53`. -/
def firstGap : Nat := 1076 * Nat.pow 2 52

theorem magnitude_ofMagnitude {m : Nat} (small : m < Nat.pow 2 63) :
    (ofMagnitude false m).magnitude = m := by
  have bits : (UInt64.ofNat (0 + m)).toNat = m := by
    simp only [show Nat.pow 2 63 = 9223372036854775808 from rfl] at small
    rw [UInt64.toNat_ofNat', Nat.zero_add, Nat.mod_eq_of_lt (by omega)]
  show (UInt64.ofNat (0 + m)).toNat % Nat.pow 2 63 = m
  rw [bits, Nat.mod_eq_of_lt small]

theorem negative_ofMagnitude {m : Nat} (small : m < Nat.pow 2 63) :
    (ofMagnitude false m).negative = false := by
  have bits : (UInt64.ofNat (0 + m)).toNat = m := by
    simp only [show Nat.pow 2 63 = 9223372036854775808 from rfl] at small
    rw [UInt64.toNat_ofNat', Nat.zero_add, Nat.mod_eq_of_lt (by omega)]
  show decide (Nat.pow 2 63 ≤ (UInt64.ofNat (0 + m)).toNat) = false
  rw [bits]
  exact decide_eq_false (Nat.not_le.2 small)

/-- A number below `2 ^ 53` has a pattern of its own. -/
theorem exists_absolute_eq {n : Nat} (positive : n ≠ 0) (small : n < 2 ^ 53) :
    ∃ m, m ≠ 0 ∧ m < firstGap ∧ absolute m = n := by
  have low : 2 ^ n.log2 ≤ n := Nat.log2_self_le positive
  have high : n < 2 ^ (n.log2 + 1) := Nat.lt_log2_self
  have few : n.log2 < 53 := (Nat.log2_lt positive).2 small
  generalize n.log2 = e at low high few
  obtain ⟨gap, total⟩ : ∃ gap, e + gap = 52 := ⟨52 - e, by omega⟩
  have least : 2 ^ 52 ≤ n * 2 ^ gap :=
    calc 2 ^ 52 = 2 ^ e * 2 ^ gap := by rw [← pow_add, total]
      _ ≤ n * 2 ^ gap := Nat.mul_le_mul_right _ low
  have most : n * 2 ^ gap < 2 ^ 53 :=
    calc n * 2 ^ gap < 2 ^ (e + 1) * 2 ^ gap := Nat.mul_lt_mul_of_pos_right high (by positivity)
      _ = 2 ^ 53 := by rw [← pow_add, Nat.add_right_comm, total]
  have value := absolute_pattern (p := 1022 + e) (.inr least) most.le
  refine ⟨(1022 + e) * Nat.pow 2 52 + n * 2 ^ gap, ?_, ?_, ?_⟩
  · simp only [show Nat.pow 2 52 = 4503599627370496 from rfl]
    omega
  · simp only [firstGap, show Nat.pow 2 52 = 4503599627370496 from rfl]
    omega
  · have exponent : ((1022 + e : ℕ) : Int) - 1074 = -(gap : Int) := by omega
    rw [value, exponent, zpow_neg, zpow_natCast]
    push_cast
    field_simp

/-- The pattern of a number from `2 ^ 53` on is no less than that of `2 ^ 53`. -/
theorem firstGap_le_ofNat {n : Nat} (large : 2 ^ 53 ≤ n) :
    ∃ m, firstGap ≤ m ∧ m ≤ infiniteMagnitude ∧ ofNat n = ofMagnitude false m := by
  have some : n ≠ 0 := by omega
  obtain ⟨-, few, bits⟩ := placeOf_spec some one_ne_zero
  rw [Nat.cast_one, div_one] at few bits
  have wide : (2 : ℚ) ^ 53 ≤ n := by exact_mod_cast large
  unfold ofNat ofRatio
  rw [if_neg some]
  dsimp only
  generalize placeOf n 1 = place at few bits
  -- 53 bits at this place exceed the number, so the place is above that of the units
  have above : 1 ≤ place := by
    by_contra below
    have unit : (2 : ℚ) ^ place ≤ 1 := zpow_le_one_of_nonpos₀ (by norm_num) (by omega)
    linarith
  obtain ⟨k, rfl⟩ : ∃ k : Nat, place = Int.ofNat k := ⟨place.toNat, by simp; omega⟩
  have enough : 2 ^ 52 ≤ n / 2 ^ k := by
    rcases bits with least | enough
    · omega
    · rw [Int.ofNat_eq_natCast, zpow_natCast] at enough
      rw [Nat.le_div_iff_mul_le (by positivity)]
      exact_mod_cast enough
  have rounded : 2 ^ 52 ≤ roundHalfEven n (1 * Nat.pow 2 k) := by
    rw [Nat.one_mul]
    refine enough.trans ?_
    show n / 2 ^ k ≤ roundHalfEven n (2 ^ k)
    unfold roundHalfEven
    dsimp only
    split
    · exact Nat.le_refl _
    split
    · exact Nat.le_add_right _ _
    · exact Nat.le_succ _
  refine ⟨_, le_min ?_ ?_, min_le_right _ _, rfl⟩
  · have field : 1075 ≤ (Int.ofNat k + 1074).toNat := by omega
    show 1076 * Nat.pow 2 52 ≤
      (Int.ofNat k + 1074).toNat * Nat.pow 2 52 + roundHalfEven n (1 * Nat.pow 2 k)
    simp only [show Nat.pow 2 52 = 4503599627370496 from rfl] at rounded ⊢
    omega
  · decide

/-- The pattern of a position: it tells the position if it is below `2 ^ 53`. -/
theorem ofNat_spec (n : Nat) : ∃ m, m ≤ infiniteMagnitude ∧ ofNat n = ofMagnitude false m ∧
    (n < 2 ^ 53 → m < firstGap ∧ absolute m = n) ∧ (2 ^ 53 ≤ n → firstGap ≤ m) := by
  rcases Nat.lt_or_ge n (2 ^ 53) with small | large
  · rcases Nat.eq_zero_or_pos n with rfl | positive
    · exact ⟨0, by decide, rfl, fun _ => ⟨by decide, absolute_zero⟩, fun large => by omega⟩
    · obtain ⟨m, some, below, value⟩ := exists_absolute_eq positive.ne' small
      have finite : m ≤ infiniteMagnitude := below.le.trans (by decide)
      have rounds : Rounds ((n : ℚ) / (1 : ℕ)) m := by
        rw [Nat.cast_one, div_one, ← value]
        exact rounds_absolute some
      refine ⟨m, finite, ?_, fun _ => ⟨below, value⟩, fun large => by omega⟩
      have made := ofRatio_of_rounds one_ne_zero rounds false
      rwa [min_eq_left finite] at made
  · obtain ⟨m, least, finite, made⟩ := firstGap_le_ofNat large
    exact ⟨m, finite, made, fun small => by omega, fun _ => least⟩

/-! ## Order -/

theorem le_ofMagnitude {m n : Nat} (hm : m ≤ infiniteMagnitude) (hn : n ≤ infiniteMagnitude) :
    (ofMagnitude false m).le (ofMagnitude false n) = true ↔ m ≤ n := by
  have top : infiniteMagnitude < Nat.pow 2 63 := by decide
  simp [le, isNaN, rank, magnitude_ofMagnitude (hm.trans_lt top), magnitude_ofMagnitude (hn.trans_lt top),
    negative_ofMagnitude (hm.trans_lt top), negative_ofMagnitude (hn.trans_lt top), hm, hn]

/-- As long as one of them is below `2 ^ 53`, two numbers are in the order of their doubles. -/
theorem le_ofNat {a b : Nat} (small : a < 2 ^ 53 ∨ b < 2 ^ 53) :
    (ofNat a).le (ofNat b) = true ↔ a ≤ b := by
  obtain ⟨m, hm, made, exact, gap⟩ := ofNat_spec a
  obtain ⟨n, hn, made', exact', gap'⟩ := ofNat_spec b
  rw [made, made', le_ofMagnitude hm hn]
  rcases Nat.lt_or_ge a (2 ^ 53) with below | above
  · rcases Nat.lt_or_ge b (2 ^ 53) with below' | above'
    · rw [← absolute_strictMono.le_iff_le, (exact below).2, (exact' below').2]
      exact Nat.cast_le
    · exact iff_of_true ((exact below).1.le.trans (gap' above')) (by omega)
  · have below' : b < 2 ^ 53 := by omega
    have less := (exact' below').1
    have least := gap above
    exact iff_of_false (by omega) (by omega)

/-! ## Positions -/

theorem isInteger_of_absolute {x : Double} (finite : x.isFinite = true) {n : Nat}
    (value : absolute x.magnitude = n) : x.isInteger = true := by
  rw [absolute, ← significand_eq, ← scale_eq] at value
  rw [isInteger, finite, Bool.true_and]
  cases place : x.scale with
  | ofNat k => rfl
  | negSucc k =>
    rw [place, zpow_negSucc, ← div_eq_mul_inv, div_eq_iff (by positivity)] at value
    have whole : x.significand = n * 2 ^ (k + 1) := by exact_mod_cast value
    exact beq_iff_eq.2 (by rw [whole]; exact Nat.mul_mod_left _ _)

theorem toPosition_eq {x : Double} (isPosition : x.isPosition = true) (positive : x.negative = false) :
    (x.toPosition : ℚ) = min (absolute x.magnitude) lastPosition := by
  have whole := (Bool.and_eq_true_iff.1 isPosition).2
  have finite : x.magnitude < infiniteMagnitude := of_decide_eq_true (Bool.and_eq_true_iff.1 whole).1
  have notNaN : x.isNaN = false := decide_eq_false (by omega)
  have notInfinite : x.isInfinite = false := beq_eq_false_iff_ne.2 (by omega)
  rw [toPosition, notNaN, positive, notInfinite]
  simp only [Bool.or_self, Bool.false_eq_true, if_false]
  rw [Nat.cast_min, integerPart_eq whole]

/-- A position below `2 ^ 53` is named by its double. -/
theorem toPosition_ofNat {n : Nat} (small : n < 2 ^ 53) :
    (ofNat n).isPosition = true ∧ (ofNat n).toPosition = n := by
  obtain ⟨m, hm, made, exact, -⟩ := ofNat_spec n
  obtain ⟨below, value⟩ := exact small
  have top : m < Nat.pow 2 63 := hm.trans_lt (by decide)
  have same := magnitude_ofMagnitude top
  have last : firstGap < infiniteMagnitude := by decide
  have finite : (ofMagnitude false m).isFinite = true :=
    decide_eq_true (same.symm ▸ below.trans last)
  have ordered : zero.le (ofMagnitude false m) = true :=
    (le_ofMagnitude (Nat.zero_le _) hm).2 (Nat.zero_le m)
  have isPosition : (ofMagnitude false m).isPosition = true := by
    rw [isPosition, ordered, isInteger_of_absolute finite (same.symm ▸ value), Bool.and_self]
  have position := toPosition_eq isPosition (negative_ofMagnitude top)
  have fits : (n : ℚ) ≤ lastPosition := by
    have most : n ≤ lastPosition := small.le.trans (by decide)
    exact_mod_cast most
  rw [same, value, min_eq_left fits] at position
  rw [made]
  exact ⟨isPosition, by exact_mod_cast position⟩

/-- The double of a greater number names no position below `2 ^ 53`. -/
theorem le_toPosition_ofNat {n : Nat} (large : 2 ^ 53 ≤ n) (isPosition : (ofNat n).isPosition = true) :
    2 ^ 53 ≤ (ofNat n).toPosition := by
  obtain ⟨m, hm, made, -, gap⟩ := ofNat_spec n
  have top : m < Nat.pow 2 63 := hm.trans_lt (by decide)
  rw [made] at isPosition ⊢
  have position := toPosition_eq isPosition (negative_ofMagnitude top)
  rw [magnitude_ofMagnitude top] at position
  have first : absolute firstGap = 2 ^ 53 := by
    have value := absolute_pattern (p := 1075) (.inr (Nat.le_refl _)) (by decide)
    have pattern : firstGap = 1075 * Nat.pow 2 52 + Nat.pow 2 52 := by decide
    rw [pattern, value, show (((1075 : ℕ) : Int) - 1074) = 1 from rfl]
    norm_num
  have value := absolute_strictMono.monotone (gap large)
  rw [first] at value
  have last : (2 : ℚ) ^ 53 ≤ lastPosition := by
    have least : 2 ^ 53 ≤ lastPosition := by decide
    exact_mod_cast least
  have bound := le_min value last
  rw [← position] at bound
  exact_mod_cast bound

/-- The double of a number is a position unless it is too large for any. -/
theorem isPosition_ofNat_or (n : Nat) : (ofNat n).isPosition = true ∨ (ofNat n).text = "Infinity" := by
  obtain small | large := Nat.lt_or_ge n (2 ^ 53)
  · exact .inl (toPosition_ofNat small).1
  obtain ⟨m, hm, made, -, gap⟩ := ofNat_spec n
  have same := magnitude_ofMagnitude (hm.trans_lt (by decide))
  rw [made]
  obtain finite | rfl := Nat.lt_or_eq_of_le hm
  · left
    have first : firstGap = 1076 * Nat.pow 2 52 := rfl
    have exponent : 1076 ≤ m / Nat.pow 2 52 :=
      (Nat.le_div_iff_mul_le (by decide)).2 (first ▸ gap large)
    have ordered : zero.le (ofMagnitude false m) = true :=
      (le_ofMagnitude (Nat.zero_le _) hm).2 (Nat.zero_le m)
    have place : (ofMagnitude false m).scale = .ofNat (m / Nat.pow 2 52 - 1075) := by
      rw [scale, same, if_neg (by omega), Int.ofNat_eq_natCast]
      omega
    rw [isPosition, ordered, isInteger, isFinite, same, place, decide_eq_true finite]
    rfl
  · right
    decide

end Double

end ShapeCheck
