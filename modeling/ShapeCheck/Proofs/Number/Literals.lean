import ShapeCheck.Proofs.Number.Numeral
import ShapeCheck.Proofs.Number.Rounding

set_option autoImplicit false

/-! # Numerals as literals

The numeral of a positive finite number has digits in front of the point, without a superfluous zero, and
possibly a point and more digits. Read as a decimal number and rounded, it gives the number again.

Main facts: `Double.text_literal` and `IsLiteral.toDouble_eq` (a literal that rounds to a double is read
as this double).
-/

namespace ShapeCheck

/-- Digits, and possibly a point and more digits; only a single digit may start with a zero. -/
structure IsLiteral (body whole fraction : List Char) : Prop where
  isWhole : ∀ c ∈ whole, c.isDigit = true
  isFraction : ∀ c ∈ fraction, c.isDigit = true
  first : ∃ c rest, whole = c :: rest ∧ (c = '0' → rest = [])
  body : body = whole ∧ fraction = [] ∨ body = whole ++ '.' :: fraction

namespace IsLiteral

variable {body whole fraction : List Char} (h : IsLiteral body whole fraction)
include h

theorem numeralValue_eq :
    numeralValue body = (Nat.ofDigitChars 10 (whole ++ fraction) 0 : ℚ) * 10 ^ (-fraction.length : Int) := by
  rcases h.body with ⟨rfl, rfl⟩ | rfl
  · rw [numeralValue_whole h.isWhole, List.append_nil]
    simp
  · rw [numeralValue_point h.isWhole h.isFraction, zpow_neg, zpow_natCast, div_eq_mul_inv]

theorem starts : ∃ c rest, body = c :: rest ∧ c.isDigit = true := by
  obtain ⟨c, rest, first, -⟩ := h.first
  have digit : c.isDigit = true := h.isWhole c (by rw [first]; exact List.mem_cons_self)
  rcases h.body with ⟨body, -⟩ | body
  · exact ⟨c, rest, body.trans first, digit⟩
  · exact ⟨c, rest ++ '.' :: fraction, by rw [body, first, List.cons_append], digit⟩

/-- A literal that rounds to a double is read as this double. -/
theorem toDouble_eq {m : Nat} (rounds : Double.Rounds (numeralValue body) m)
    (finite : m < Double.infiniteMagnitude) :
    Decimal.toDouble ⟨false, Nat.ofDigitChars 10 (whole ++ fraction) 0, -fraction.length⟩ =
      Double.ofMagnitude false m := by
  rw [h.numeralValue_eq] at rounds
  exact Decimal.toDouble_of_rounds rounds finite

end IsLiteral

/-! ## Texts of numbers -/

/-- The digits of a positive number do not start with a zero. -/
theorem Decimal.digitsOf_first {n : Nat} (positive : n ≠ 0) :
    ∃ c rest, digitsOf n = c :: rest ∧ c ≠ '0' := by
  induction n using Nat.strongRecOn with
  | ind n ih =>
    unfold digitsOf at ih ⊢
    by_cases small : n < 10
    · refine ⟨n.digitChar, [], Nat.toDigits_of_lt_base small, ?_⟩
      have all : ∀ n < 10, n ≠ 0 → n.digitChar ≠ '0' := by decide
      exact all n small positive
    · have front : n / 10 ≠ 0 := by omega
      obtain ⟨c, rest, digits, other⟩ := ih (n / 10) (by omega) front
      refine ⟨c, rest ++ [(n % 10).digitChar], ?_, other⟩
      rw [Nat.toDigits_of_base_le (by decide) (by omega), digits, List.cons_append]

/-- Positional notation of a number other than zero is a literal. -/
theorem Decimal.positional_literal {x : Decimal} (positive : x.digits ≠ 0) :
    ∃ body whole fraction, x.positional = sign x.negative ++ String.ofList body ∧
      IsLiteral body whole fraction := by
  have digits (c : Char) (inside : c ∈ digitsOf x.digits) := isDigit_of_mem_digitsOf inside
  have zero (c : Char) (k : Nat) (inside : c ∈ List.replicate k '0') : c.isDigit = true := by
    rw [List.eq_of_mem_replicate inside]
    rfl
  obtain ⟨first, rest, start, notZero⟩ := digitsOf_first positive
  unfold positional
  dsimp only
  split
  · rename_i k exponent
    refine ⟨_, _, [], rfl, fun c inside => ?_, nofun, ⟨first, rest ++ List.replicate k '0', ?_, ?_⟩,
      .inl ⟨rfl, rfl⟩⟩
    · exact (List.mem_append.1 inside).elim (digits c) (zero c k)
    · rw [start, List.cons_append]
    · exact fun isZero => absurd isZero notZero
  · rename_i k exponent
    let padding := List.replicate (k + 1 + 1 - (digitsOf x.digits).length) '0'
    have all : ∀ c ∈ padding ++ digitsOf x.digits, c.isDigit = true := fun c inside =>
      (List.mem_append.1 inside).elim (zero c _) (digits c)
    have split : (padding ++ digitsOf x.digits).length - (k + 1) =
        if (digitsOf x.digits).length ≤ k + 1 then 1 else (digitsOf x.digits).length - (k + 1) := by
      simp only [padding, List.length_append, List.length_replicate]
      split <;> omega
    refine ⟨_, _, _, rfl, fun c inside => all c (List.mem_of_mem_take inside),
      fun c inside => all c (List.mem_of_mem_drop inside), ?_, .inr rfl⟩
    show ∃ c rest, (padding ++ digitsOf x.digits).take
      ((padding ++ digitsOf x.digits).length - (k + 1)) = c :: rest ∧ (c = '0' → rest = [])
    rw [split]
    split
    · -- the number is less than one: a single zero is put in front of the point
      rename_i short
      obtain ⟨padded, some⟩ := Nat.exists_eq_succ_of_ne_zero
        (show k + 1 + 1 - (digitsOf x.digits).length ≠ 0 by omega)
      refine ⟨'0', [], ?_, fun _ => rfl⟩
      simp only [padding, some, Nat.succ_eq_add_one, List.replicate_succ, List.cons_append, List.take_succ_cons,
        List.take_zero]
    · rename_i long
      obtain ⟨width, some⟩ := Nat.exists_eq_succ_of_ne_zero
        (show (digitsOf x.digits).length - (k + 1) ≠ 0 by omega)
      have none : padding = [] := by
        simp only [padding, show k + 1 + 1 - (digitsOf x.digits).length = 0 by omega, List.replicate_zero]
      refine ⟨first, rest.take width, ?_, fun isZero => absurd isZero notZero⟩
      rw [none, List.nil_append, some, start, Nat.succ_eq_add_one, List.take_succ_cons]

namespace Double

/-- A positive finite number is written as a sign and a literal that rounds to it. -/
theorem text_literal {x : Double} (finite : x.isFinite = true) (positive : x.magnitude ≠ 0) :
    ∃ body whole fraction, x.text = Decimal.sign x.negative ++ String.ofList body ∧
      IsLiteral body whole fraction ∧ Rounds (numeralValue body) x.magnitude := by
  obtain ⟨body, written, -, rounds⟩ := text_of_isFinite finite positive
  suffices literal : ∃ other whole fraction,
      x.text = Decimal.sign x.negative ++ String.ofList other ∧ IsLiteral other whole fraction by
    obtain ⟨other, whole, fraction, written', literal⟩ := literal
    rw [written] at written'
    have chars := congrArg String.toList written'
    obtain rfl : body = other := by simpa using chars
    exact ⟨body, whole, fraction, written, literal, rounds⟩
  rw [text_eq_of_isFinite finite positive]
  split
  · rename_i isInteger
    have some : x.integerPart ≠ 0 := by
      have value := integerPart_eq isInteger.1
      have above : 0 < absolute x.magnitude := (rounds_absolute positive).pos
      rw [← value] at above
      exact_mod_cast above.ne'
    obtain ⟨c, rest, start, notZero⟩ := Decimal.digitsOf_first some
    refine ⟨Decimal.digitsOf x.integerPart, _, [], by rw [Nat.toString_eq_ofList_toDigits]; rfl,
      fun c inside => Decimal.isDigit_of_mem_digitsOf inside, nofun,
      ⟨c, rest, start, fun isZero => absurd isZero notZero⟩, .inl ⟨rfl, rfl⟩⟩
  · obtain ⟨negative, shortest⟩ := rounds_shortest finite positive
    have some : x.shortest.digits ≠ 0 := by
      intro zero
      have := shortest.pos
      simp [zero] at this
    rw [← negative]
    exact Decimal.positional_literal some

end Double

end ShapeCheck
