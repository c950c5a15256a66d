import Mathlib.Algebra.Order.Field.Power
import Mathlib.Tactic.FieldSimp
import Mathlib.Tactic.Linarith
import Mathlib.Tactic.Positivity
import Mathlib.Tactic.Ring
import ShapeCheck.Number.Shortest

set_option autoImplicit false

/-! # The spacing of doubles

The numbers that finite doubles stand for, in the order of their bit patterns, and the gaps between
them. Half of the gap on either side of a double makes up its rounding interval, so the intervals of
two doubles meet in a single point at most, which belongs to one of them only.

Main facts: `Double.absolute_succ` and `Double.Rounds.unique`.
-/

namespace ShapeCheck

namespace Double

/-- The significand of a bit pattern without its sign. -/
def significandOf (m : Nat) : Nat :=
  if m / Nat.pow 2 52 = 0 then m else Nat.pow 2 52 + m % Nat.pow 2 52

/-- The power of two of the last place of a bit pattern without its sign. -/
def scaleOf (m : Nat) : Int :=
  if m / Nat.pow 2 52 = 0 then -1074 else (m / Nat.pow 2 52 : Nat) - 1075

theorem significand_eq (x : Double) : x.significand = significandOf x.magnitude := rfl

theorem scale_eq (x : Double) : x.scale = scaleOf x.magnitude := rfl

/-- The number that a bit pattern without its sign stands for. -/
def absolute (m : Nat) : ℚ := significandOf m * 2 ^ scaleOf m

/-- From one bit pattern to the next, either the significand grows by one, or it starts again at the
next power of two. -/
theorem significandOf_succ (m : Nat) :
    (significandOf (m + 1) = significandOf m + 1 ∧ scaleOf (m + 1) = scaleOf m) ∨
      (significandOf m + 1 = 2 * Nat.pow 2 52 ∧ significandOf (m + 1) = Nat.pow 2 52 ∧
        scaleOf (m + 1) = scaleOf m + 1) := by
  unfold significandOf scaleOf
  simp only [show Nat.pow 2 52 = 4503599627370496 from rfl]
  by_cases last : m % 4503599627370496 = 4503599627370495
  · have field : (m + 1) / 4503599627370496 = m / 4503599627370496 + 1 := by omega
    have fraction : (m + 1) % 4503599627370496 = 0 := by omega
    rw [field, fraction, if_neg (Nat.succ_ne_zero _), if_neg (Nat.succ_ne_zero _)]
    by_cases first : m / 4503599627370496 = 0
    · rw [if_pos first, if_pos first]
      exact .inl ⟨by omega, by omega⟩
    · rw [if_neg first, if_neg first]
      exact .inr ⟨by omega, by omega, by omega⟩
  · have field : (m + 1) / 4503599627370496 = m / 4503599627370496 := by omega
    have fraction : (m + 1) % 4503599627370496 = m % 4503599627370496 + 1 := by omega
    rw [field, fraction]
    left
    split
    · exact ⟨rfl, rfl⟩
    · exact ⟨rfl, rfl⟩

theorem absolute_succ (m : Nat) : absolute (m + 1) = absolute m + 2 ^ scaleOf m := by
  unfold absolute
  rcases significandOf_succ m with ⟨next, same⟩ | ⟨last, first, next⟩
  · rw [next, same]
    push_cast
    ring
  · rw [first, next, zpow_add_one₀ (by norm_num)]
    have total : (significandOf m : ℚ) + 1 = 2 * (Nat.pow 2 52 : ℕ) := by exact_mod_cast last
    have grown : (significandOf m : ℚ) * 2 ^ scaleOf m + 2 ^ scaleOf m =
        ((significandOf m : ℚ) + 1) * 2 ^ scaleOf m := by ring
    rw [grown, total]
    ring

theorem absolute_strictMono : StrictMono absolute :=
  strictMono_nat_of_lt_succ fun m => by
    rw [absolute_succ]
    have gap : (0 : ℚ) < 2 ^ scaleOf m := by positivity
    linarith

theorem absolute_zero : absolute 0 = 0 := by simp [absolute, significandOf]

/-! ## Rounding intervals -/

/-- The number in the middle between a bit pattern and the next one. -/
def middle (m : Nat) : ℚ := (absolute m + absolute (m + 1)) / 2

theorem middle_strictMono : StrictMono middle := by
  intro m n less
  have low := absolute_strictMono less
  have high := absolute_strictMono (Nat.succ_lt_succ less)
  unfold middle
  linarith

/-- The numbers that round to the bit pattern: those between the middles on its two sides, and the
middles themselves if the pattern is even. -/
structure Rounds (q : ℚ) (m : Nat) : Prop where
  positive : m ≠ 0
  low : middle (m - 1) ≤ q
  high : q ≤ middle m
  inside : m % 2 ≠ 0 → middle (m - 1) < q ∧ q < middle m

/-- No number rounds to two bit patterns. -/
theorem Rounds.unique {q : ℚ} {m n : Nat} (h : Rounds q m) (h' : Rounds q n) : m = n := by
  -- otherwise the number is the middle between two neighbours, of which one is odd
  have le {m n : Nat} (h : Rounds q m) (h' : Rounds q n) : ¬ m < n := by
    intro less
    have bound : middle m ≤ middle (n - 1) := middle_strictMono.monotone (by omega)
    have same : middle m = middle (n - 1) := le_antisymm bound (h'.low.trans h.high)
    have next : m = n - 1 := middle_strictMono.injective same
    by_cases odd : m % 2 = 0
    · have strict := (h'.inside (by omega)).1
      have := h.high
      linarith
    · have strict := (h.inside odd).2
      have := h'.low
      linarith
  exact le_antisymm (not_lt.1 (le h' h)) (not_lt.1 (le h h'))

theorem Rounds.pos {q : ℚ} {m : Nat} (h : Rounds q m) : 0 < q := by
  have least : absolute 0 < absolute (0 + 1) := absolute_strictMono (Nat.lt_succ_self 0)
  have first : 0 < middle 0 := by
    rw [absolute_zero] at least
    rw [middle, absolute_zero]
    linarith
  exact first.trans_le ((middle_strictMono.monotone (Nat.zero_le _)).trans h.low)

/-- The number of a bit pattern rounds to it. -/
theorem rounds_absolute {m : Nat} (positive : m ≠ 0) : Rounds (absolute m) m := by
  obtain ⟨n, rfl⟩ := Nat.exists_eq_succ_of_ne_zero positive
  have below : absolute n < absolute (n + 1) := absolute_strictMono (Nat.lt_succ_self n)
  have above : absolute (n + 1) < absolute (n + 1 + 1) := absolute_strictMono (Nat.lt_succ_self _)
  have low : middle n < absolute (n + 1) := by
    rw [middle]
    linarith
  have high : absolute (n + 1) < middle (n + 1) := by
    rw [middle]
    linarith
  exact ⟨positive, low.le, high.le, fun _ => ⟨low, high⟩⟩

/-! ## The interval of a double -/

theorem significandOf_mod_two (m : Nat) : significandOf m % 2 = m % 2 := by
  unfold significandOf
  simp only [show Nat.pow 2 52 = 4503599627370496 from rfl]
  split
  · rfl
  · omega

/-- Below the least normal double all gaps are alike. -/
theorem scaleOf_of_significandOf_lt {m : Nat} (h : significandOf m < Nat.pow 2 52) :
    scaleOf m = -1074 := by
  unfold significandOf at h
  unfold scaleOf
  split at h
  · rename_i small
    rw [if_pos small]
  · omega

theorem le_scaleOf (m : Nat) : -1074 ≤ scaleOf m := by
  unfold scaleOf
  simp only [show Nat.pow 2 52 = 4503599627370496 from rfl]
  split <;> omega

variable (x : Double)

theorem middle_eq : middle x.magnitude =
    (x.interval.value + x.interval.above : ℚ) * 2 ^ x.interval.scale := by
  rw [middle, absolute_succ]
  simp only [absolute, interval, significand_eq, scale_eq]
  rw [zpow_sub₀ (by norm_num)]
  push_cast
  ring

theorem middle_pred_eq (positive : x.magnitude ≠ 0) : middle (x.magnitude - 1) =
    (x.interval.value - x.interval.below : ℚ) * 2 ^ x.interval.scale := by
  obtain ⟨m, succ⟩ := Nat.exists_eq_succ_of_ne_zero positive
  have before : middle m = absolute (m + 1) - 2 ^ scaleOf m / 2 := by
    rw [middle, absolute_succ]
    ring
  have floor := le_scaleOf m
  simp only [interval, significand_eq, scale_eq, succ, Nat.succ_eq_add_one, Nat.add_sub_cancel,
    before, absolute]
  rcases significandOf_succ m with ⟨next, same⟩ | ⟨last, first, next⟩
  · have wide : ¬ (significandOf (m + 1) = Nat.pow 2 52 ∧ -1074 < scaleOf (m + 1)) := by
      rintro ⟨least, above⟩
      have := scaleOf_of_significandOf_lt (m := m) (by omega)
      omega
    rw [if_neg wide, same, zpow_sub₀ (by norm_num)]
    push_cast
    ring
  · have narrow : significandOf (m + 1) = Nat.pow 2 52 ∧ -1074 < scaleOf (m + 1) :=
      ⟨first, by omega⟩
    have back : scaleOf m = scaleOf (m + 1) - 1 := by omega
    rw [if_pos narrow, back, zpow_sub₀ (by norm_num), zpow_sub₀ (by norm_num)]
    push_cast
    ring

end Double

end ShapeCheck
