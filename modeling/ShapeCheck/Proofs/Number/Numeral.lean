import Mathlib.Data.List.TakeWhile
import ShapeCheck.Number.Notation
import ShapeCheck.Proofs.Number.Shortest

set_option autoImplicit false

/-! # Numerals

The text of a finite number is a sign and a numeral in positional notation. What the numeral spells
rounds to the number, so numbers that are written alike are equal.

Main facts: `Double.text_cases` (what texts of numbers look like) and `Double.equals_of_text_eq`.
-/

namespace ShapeCheck

/-! ## Positional notation -/

/-- A digit, then digits and points. -/
def IsNumeral (body : List Char) : Prop :=
  ∃ c rest, body = c :: rest ∧ c.isDigit = true ∧ ∀ d ∈ rest, d.isDigit = true ∨ d = '.'

/-- The number that a numeral spells: all digits, with as many places as stand behind the point. -/
def numeralValue (body : List Char) : ℚ :=
  Nat.ofDigitChars 10 (body.filter (· != '.')) 0 / 10 ^ ((body.dropWhile (· != '.')).length - 1)

section
variable {whole fraction : List Char} (isWhole : ∀ c ∈ whole, c.isDigit = true)
include isWhole

omit isWhole in
theorem isNumeral_append (isWhole : ∀ c ∈ whole, c.isDigit = true) (first : whole ≠ [])
    (tail : ∀ c ∈ fraction, c.isDigit = true ∨ c = '.') : IsNumeral (whole ++ fraction) := by
  obtain ⟨c, rest, rfl⟩ := List.exists_cons_of_ne_nil first
  refine ⟨c, rest ++ fraction, rfl, isWhole c (by simp), fun d inside => ?_⟩
  rcases List.mem_append.1 inside with inside | inside
  · exact .inl (isWhole d (by simp [inside]))
  · exact tail d inside

theorem ne_point_of_isDigit {c : Char} (inside : c ∈ whole) : (c != '.') = true := by
  refine bne_iff_ne.2 ?_
  rintro rfl
  have := isWhole _ inside
  revert this
  decide

theorem numeralValue_whole : numeralValue whole = Nat.ofDigitChars 10 whole 0 := by
  have digits (c : Char) (inside : c ∈ whole) := ne_point_of_isDigit isWhole inside
  rw [numeralValue, List.filter_eq_self.2 digits, List.dropWhile_eq_nil_iff.2 digits]
  simp

theorem numeralValue_point (isFraction : ∀ c ∈ fraction, c.isDigit = true) :
    numeralValue (whole ++ '.' :: fraction) =
      Nat.ofDigitChars 10 (whole ++ fraction) 0 / 10 ^ fraction.length := by
  have digits (c : Char) (inside : c ∈ whole) := ne_point_of_isDigit isWhole inside
  have digits' (c : Char) (inside : c ∈ fraction) := ne_point_of_isDigit isFraction inside
  rw [numeralValue, List.filter_append, List.filter_eq_self.2 digits, List.dropWhile_append_of_pos digits]
  simp [List.filter_eq_self.2 digits']

end

namespace Decimal

theorem isDigit_of_mem_digitsOf {n : Nat} {c : Char} (h : c ∈ digitsOf n) : c.isDigit = true :=
  Nat.isDigit_of_mem_toDigits (by decide) (by decide) h

/-- A numeral spells its number. -/
theorem positional_eq (x : Decimal) : ∃ body, x.positional = sign x.negative ++ String.ofList body ∧
    IsNumeral body ∧ numeralValue body = x.digits * 10 ^ x.exponent := by
  have digits (c : Char) (inside : c ∈ digitsOf x.digits) := isDigit_of_mem_digitsOf inside
  have zero (c : Char) (k : Nat) (inside : c ∈ List.replicate k '0') : c.isDigit = true := by
    rw [List.eq_of_mem_replicate inside]
    rfl
  have first := List.ne_nil_of_length_pos (digitsOf_length_pos x.digits)
  unfold positional
  refine ⟨_, rfl, ?_⟩
  dsimp only
  split
  · rename_i k exponent
    have all : ∀ c ∈ digitsOf x.digits ++ List.replicate k '0', c.isDigit = true := by
      intro c inside
      exact (List.mem_append.1 inside).elim (digits c) (zero c k)
    refine ⟨isNumeral_append digits first fun c inside => .inl (zero c k inside), ?_⟩
    rw [numeralValue_whole all, Nat.ofDigitChars_append, Nat.ofDigitChars_replicate_zero, digitsOf,
      Nat.ofDigitChars_ten_toDigits, exponent]
    push_cast
    rw [Int.ofNat_eq_natCast, zpow_natCast, mul_comm]
  · rename_i k exponent
    -- the digits are padded such that at least one of them is in front of the point
    let padded := List.replicate (k + 1 + 1 - (digitsOf x.digits).length) '0' ++ digitsOf x.digits
    have all : ∀ c ∈ padded, c.isDigit = true := by
      intro c inside
      exact (List.mem_append.1 inside).elim (zero c _) (digits c)
    have long : k + 1 < padded.length := by
      simp only [padded, List.length_append, List.length_replicate]
      omega
    have front : ∀ c ∈ padded.take (padded.length - (k + 1)), c.isDigit = true :=
      fun c inside => all c (List.mem_of_mem_take inside)
    have back : ∀ c ∈ padded.drop (padded.length - (k + 1)), c.isDigit = true :=
      fun c inside => all c (List.mem_of_mem_drop inside)
    have some : padded.take (padded.length - (k + 1)) ≠ [] := by
      refine List.ne_nil_of_length_pos ?_
      rw [List.length_take]
      omega
    refine ⟨isNumeral_append front some fun c inside => ?_, ?_⟩
    · exact (List.mem_cons.1 inside).symm.imp_left (back c)
    · rw [numeralValue_point front back, List.take_append_drop, List.length_drop,
        Nat.ofDigitChars_append, Nat.ofDigitChars_replicate_zero, digitsOf, Nat.mul_zero,
        Nat.ofDigitChars_ten_toDigits, exponent, zpow_negSucc, Nat.sub_sub_self long.le]
      rfl

/-- A sign can be told apart from the text behind it. -/
theorem sign_append_injective {negative negative' : Bool} {c c' : Char} {rest rest' : List Char}
    (ne : c ≠ '-') (ne' : c' ≠ '-')
    (same : sign negative ++ String.ofList (c :: rest) = sign negative' ++ String.ofList (c' :: rest')) :
    negative = negative' ∧ c :: rest = c' :: rest' := by
  have chars := congrArg String.toList same
  cases negative <;> cases negative' <;> simp [sign] at chars
  · exact ⟨rfl, by simp [chars]⟩
  · exact absurd chars.1 ne
  · exact absurd chars.1.symm ne'
  · exact ⟨rfl, by simp [chars]⟩

end Decimal

theorem IsNumeral.isDigit {c : Char} {rest : List Char} (h : IsNumeral (c :: rest)) :
    c.isDigit = true := by
  obtain ⟨d, tail, same, digit, -⟩ := h
  rwa [(List.cons.inj same).1]

/-! ## Texts of numbers -/

namespace Double

theorem integerPart_eq {x : Double} (h : x.isInteger = true) :
    (x.integerPart : ℚ) = absolute x.magnitude := by
  obtain ⟨finite, whole⟩ := Bool.and_eq_true_iff.1 h
  rw [absolute, ← significand_eq, ← scale_eq, integerPart, if_pos finite]
  cases place : x.scale with
  | ofNat k =>
    show ((x.significand * 2 ^ k : ℕ) : ℚ) = _
    push_cast
    rw [Int.ofNat_eq_natCast, zpow_natCast]
  | negSucc k =>
    rw [place] at whole
    have divides : 2 ^ (k + 1) ∣ x.significand := Nat.dvd_of_mod_eq_zero (beq_iff_eq.1 whole)
    have cast : ((x.significand / 2 ^ (k + 1) : ℕ) : ℚ) * 2 ^ (k + 1) = x.significand := by
      exact_mod_cast Nat.div_mul_cancel divides
    show ((x.significand / 2 ^ (k + 1) : ℕ) : ℚ) = _
    rw [zpow_negSucc, ← cast, mul_inv_cancel_right₀ (by positivity)]

/-- The text of a finite number other than zero is that of an integer, or the one with fewest digits. -/
theorem text_eq_of_isFinite {x : Double} (finite : x.isFinite = true) (positive : x.magnitude ≠ 0) :
    x.text = if x.isInteger ∧ x.integerPart < Nat.pow 10 21 then
      Decimal.sign x.negative ++ toString x.integerPart else x.shortest.positional := by
  have small : x.magnitude < infiniteMagnitude := of_decide_eq_true finite
  have notNaN : ¬ x.isNaN = true := by
    rw [isNaN, decide_eq_true_iff]
    omega
  have notInfinite : ¬ x.isInfinite = true := by
    rw [isInfinite, beq_iff_eq]
    omega
  have notZero : ¬ x.isZero = true := by simpa [isZero] using positive
  unfold text
  rw [if_neg notNaN, if_neg notInfinite, if_neg notZero]

/-- A finite number is written as a sign and a numeral that rounds to it. -/
theorem text_of_isFinite {x : Double} (finite : x.isFinite = true) (positive : x.magnitude ≠ 0) :
    ∃ body, x.text = Decimal.sign x.negative ++ String.ofList body ∧ IsNumeral body ∧
      Rounds (numeralValue body) x.magnitude := by
  rw [text_eq_of_isFinite finite positive]
  split
  · rename_i isWhole
    have digits (c : Char) (inside : c ∈ Nat.toDigits 10 x.integerPart) : c.isDigit = true :=
      Decimal.isDigit_of_mem_digitsOf inside
    refine ⟨Nat.toDigits 10 x.integerPart, by rw [Nat.toString_eq_ofList_toDigits], ?_, ?_⟩
    · have numeral : IsNumeral (Nat.toDigits 10 x.integerPart ++ []) :=
        isNumeral_append digits Nat.toDigits_ne_nil (by simp)
      rwa [List.append_nil] at numeral
    · rw [numeralValue_whole digits, Nat.ofDigitChars_ten_toDigits, integerPart_eq isWhole.1]
      exact rounds_absolute positive
  · obtain ⟨negative, rounds⟩ := rounds_shortest finite positive
    obtain ⟨body, written, numeral, value⟩ := x.shortest.positional_eq
    exact ⟨body, by rw [written, negative], numeral, by rwa [value]⟩

/-- A sign and what is written behind it for a number: one of two words, or a numeral. -/
inductive Spelling (x : Double) : Bool → List Char → Prop
  | nan : x.isNaN = true → Spelling x false "NaN".toList
  | infinity {negative : Bool} : x.magnitude = infiniteMagnitude → x.negative = negative →
      Spelling x negative "Infinity".toList
  | zero : x.magnitude = 0 → Spelling x false ['0']
  | numeral {negative : Bool} {body : List Char} : IsNumeral body →
      Rounds (numeralValue body) x.magnitude → x.negative = negative → Spelling x negative body

theorem numeralValue_zero : numeralValue ['0'] = 0 := by
  rw [numeralValue_whole (List.forall_mem_singleton.2 (by decide))]
  rfl

/-- What texts of numbers look like. -/
theorem text_spelling (x : Double) : ∃ negative body, Spelling x negative body ∧
    x.text = Decimal.sign negative ++ String.ofList body := by
  by_cases isNaN : x.isNaN = true
  · refine ⟨_, _, .nan isNaN, ?_⟩
    rw [text, if_pos isNaN]
    rfl
  by_cases isInfinite : x.isInfinite = true
  · refine ⟨_, _, .infinity (beq_iff_eq.1 isInfinite) rfl, ?_⟩
    rw [text, if_neg isNaN, if_pos isInfinite]
    cases x.negative <;> rfl
  by_cases isZero : x.isZero = true
  · refine ⟨_, _, .zero (beq_iff_eq.1 isZero), ?_⟩
    rw [text, if_neg isNaN, if_neg isInfinite, if_pos isZero]
    rfl
  · have positive : x.magnitude ≠ 0 := fun zero => isZero (beq_iff_eq.2 zero)
    have finite : x.isFinite = true := by
      rw [Double.isNaN, decide_eq_true_iff] at isNaN
      rw [Double.isInfinite, beq_iff_eq] at isInfinite
      rw [isFinite, decide_eq_true_iff]
      omega
    obtain ⟨body, written, numeral, rounds⟩ := text_of_isFinite finite positive
    exact ⟨_, body, .numeral numeral rounds rfl, written⟩

/-- What is written behind the sign is not a second sign. -/
theorem Spelling.unsigned {x : Double} {negative : Bool} {body : List Char}
    (h : Spelling x negative body) : ∃ c rest, body = c :: rest ∧ c ≠ '-' := by
  cases h with
  | nan => exact ⟨'N', _, rfl, by decide⟩
  | infinity => exact ⟨'I', _, rfl, by decide⟩
  | zero => exact ⟨'0', _, rfl, by decide⟩
  | numeral isNumeral =>
    obtain ⟨c, rest, rfl, digit, -⟩ := isNumeral
    refine ⟨c, rest, rfl, ?_⟩
    rintro rfl
    revert digit
    decide

/-- The sign and the other bits make up a double. -/
theorem eq_of_magnitude_eq {x y : Double} (signs : x.negative = y.negative)
    (magnitudes : x.magnitude = y.magnitude) : x = y := by
  have bits : x.bits.toNat = y.bits.toNat := by
    have small := x.bits.toNat_lt
    have small' := y.bits.toNat_lt
    simp only [negative, magnitude, decide_eq_decide, show Nat.pow 2 63 = 9223372036854775808 from rfl]
      at signs magnitudes
    omega
  cases x
  cases y
  exact congrArg Double.mk (UInt64.toNat_inj.1 bits)

theorem rank_of_isZero {x : Double} (zero : x.magnitude = 0) : x.rank = 0 := by
  simp [rank, zero]

theorem equals_of_isZero {x y : Double} (zero : x.magnitude = 0) (zero' : y.magnitude = 0)
    (z : Double) : z.equals x = z.equals y := by
  simp only [equals, isNaN, rank_of_isZero zero, rank_of_isZero zero', zero, zero']

/-- A spelling belongs to one number, up to the sign of zero. -/
theorem Spelling.equals_eq {x y : Double} {negative : Bool} {body : List Char}
    (h : Spelling x negative body) (h' : Spelling y negative body) (z : Double) :
    z.equals x = z.equals y := by
  have word {c : Char} {rest : List Char} (other : c.isDigit = false) :
      ¬ IsNumeral (c :: rest) := fun numeral => by
    rw [numeral.isDigit] at other
    cases other
  generalize spelled : body = text at h'
  cases h with
  | nan isNaN =>
    cases h' with
    | nan isNaN' => simp [equals, isNaN, isNaN']
    | infinity | zero => exact absurd spelled (by decide)
    | numeral isNumeral => exact absurd (spelled ▸ isNumeral) (word rfl)
  | infinity infinite sign =>
    cases h' with
    | nan | zero => exact absurd spelled (by decide)
    | infinity infinite' sign' =>
      rw [eq_of_magnitude_eq (sign.trans sign'.symm) (infinite.trans infinite'.symm)]
    | numeral isNumeral => exact absurd (spelled ▸ isNumeral) (word rfl)
  | zero isZero =>
    cases h' with
    | nan | infinity => exact absurd spelled (by decide)
    | zero isZero' => exact equals_of_isZero isZero isZero' z
    | numeral _ rounds =>
      rw [← spelled, numeralValue_zero] at rounds
      exact absurd rounds.pos (lt_irrefl _)
  | numeral isNumeral rounds sign =>
    cases h' with
    | nan | infinity => exact absurd (spelled ▸ isNumeral) (word rfl)
    | zero =>
      rw [spelled, numeralValue_zero] at rounds
      exact absurd rounds.pos (lt_irrefl _)
    | numeral _ rounds' sign' =>
      rw [spelled] at rounds
      rw [eq_of_magnitude_eq (sign.trans sign'.symm) (rounds.unique rounds')]

/-- Numbers that are written alike are equal. -/
theorem equals_of_text_eq {x y : Double} (same : x.text = y.text) (z : Double) :
    z.equals x = z.equals y := by
  obtain ⟨negative, body, spelling, written⟩ := text_spelling x
  obtain ⟨negative', body', spelling', written'⟩ := text_spelling y
  obtain ⟨c, rest, rfl, ne⟩ := spelling.unsigned
  obtain ⟨c', rest', rfl, ne'⟩ := spelling'.unsigned
  rw [written, written'] at same
  obtain ⟨rfl, bodies⟩ := Decimal.sign_append_injective ne ne' same
  exact spelling.equals_eq (bodies ▸ spelling') z

/-! ## Characters of texts of numbers -/

/-- The text of a number has letters, digits, points and minus signs only. -/
theorem mem_text {x : Double} {c : Char} (h : c ∈ x.text.toList) :
    c.isAlphanum = true ∨ c = '.' ∨ c = '-' := by
  obtain ⟨negative, body, spelling, written⟩ := text_spelling x
  rw [written, String.toList_append, String.toList_ofList] at h
  rcases List.mem_append.1 h with inside | inside
  · cases negative
    · cases inside
    · exact .inr (.inr (List.mem_singleton.1 inside))
  have digit {c : Char} (h : c.isDigit = true) : c.isAlphanum = true := by
    simp [Char.isAlphanum, h]
  cases spelling with
  | nan =>
    have letters : "NaN".toList.all Char.isAlphanum = true := by decide
    exact .inl (List.all_eq_true.1 letters c inside)
  | infinity =>
    have letters : "Infinity".toList.all Char.isAlphanum = true := by decide
    exact .inl (List.all_eq_true.1 letters c inside)
  | zero =>
    rw [List.mem_singleton.1 inside]
    exact .inl (by decide)
  | numeral isNumeral =>
    obtain ⟨d, rest, rfl, first, others⟩ := isNumeral
    rcases List.mem_cons.1 inside with rfl | inside
    · exact .inl (digit first)
    · exact (others c inside).imp digit .inl

/-- The text of a number is a word, or it starts with a digit or a minus sign. -/
theorem text_start (x : Double) : x.text ∈ ["NaN", "Infinity"] ∨
    ∃ c rest, x.text.toList = c :: rest ∧ (c.isDigit = true ∨ c = '-') := by
  obtain ⟨negative, body, spelling, written⟩ := text_spelling x
  cases negative with
  | true => exact .inr ⟨'-', body, by rw [written]; simp [Decimal.sign], .inr rfl⟩
  | false =>
    have plain : x.text.toList = body := by
      rw [written]
      simp [Decimal.sign]
    cases spelling with
    | nan | infinity =>
      left
      rw [← String.toList_inj.1 plain.symm]
      decide
    | zero => exact .inr ⟨'0', [], plain, .inl rfl⟩
    | numeral isNumeral =>
      obtain ⟨c, rest, rfl, digit, -⟩ := isNumeral
      exact .inr ⟨c, rest, plain, .inl digit⟩

end Double

end ShapeCheck
