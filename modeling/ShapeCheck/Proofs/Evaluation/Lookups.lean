import ShapeCheck.Proofs.Number.Positions
import ShapeCheck.Proofs.Evaluation.Tests

set_option autoImplicit false

/-! # Keys and positions

The elements of an array are found by text and by number. A text that spells a position finds the element
even if zeros or a plus sign stand in front of the digits, but such a text is no key of the array. A number
finds what its text finds; buffers alone have elements for numbers that their texts do not find.

Main facts: `Value.position?_eq_some_iff` (which texts name a position), `Double.position?_text` (which
position the text of a number names) and `Value.access_coherent`.
-/

namespace ShapeCheck

/-! ## Digits -/

namespace Decimal

theorem digit_bounds {c : Char} (digit : c.isDigit = true) : 48 ≤ c.toNat ∧ c.toNat ≤ 57 := by
  simpa [Char.isDigit, UInt32.le_iff_toNat_le] using digit

theorem digitValue_lt {c : Char} (digit : c.isDigit = true) : digitValue c < 10 := by
  have bounds := digit_bounds digit
  show c.toNat - 48 < 10
  omega

/-- A digit is the notation of its value. -/
theorem digitsOf_digitValue {c : Char} (digit : c.isDigit = true) : digitsOf (digitValue c) = [c] := by
  have small := digitValue_lt digit
  have rebuilt : (digitValue c).digitChar = c := by
    have bounds := digit_bounds digit
    rw [← Char.toNat_inj, Nat.toNat_digitChar_of_lt_ten small]
    show 48 + (c.toNat - 48) = c.toNat
    omega
  rw [digitsOf, Nat.toDigits_of_lt_base small, rebuilt]

theorem readDigits_append_singleton (digits : List Char) (c : Char) :
    readDigits 0 (digits ++ [c]) = 10 * readDigits 0 digits + digitValue c := by
  simp [readDigits]

/-- Zeros in front of the digits do not count. -/
theorem readDigits_zeros (zeros n : Nat) :
    readDigits 0 (List.replicate zeros '0' ++ digitsOf n) = n := by
  show Nat.ofDigitChars 10 (List.replicate zeros '0' ++ Nat.toDigits 10 n) 0 = n
  calc Nat.ofDigitChars 10 (List.replicate zeros '0' ++ Nat.toDigits 10 n) 0
      = Nat.ofDigitChars 10 (Nat.toDigits 10 n) (10 ^ zeros * 0) := by
        rw [Nat.ofDigitChars_append, Nat.ofDigitChars_replicate_zero]
    _ = n := by rw [Nat.mul_zero, Nat.ofDigitChars_ten_toDigits]

theorem isDigit_of_mem_zeros (zeros n : Nat) :
    ∀ c ∈ List.replicate zeros '0' ++ digitsOf n, c.isDigit = true := by
  intro c inside
  rcases List.mem_append.1 inside with zero | digit
  · rw [List.eq_of_mem_replicate zero]
    rfl
  · exact isDigit_of_mem_digitsOf digit

/-- Nothing else may stand in front of them: digits are the notation of the number that they spell, behind
zeros. -/
theorem exists_eq_zeros_append {digits : List Char} (some : digits ≠ [])
    (all : ∀ c ∈ digits, c.isDigit = true) :
    ∃ zeros, digits = List.replicate zeros '0' ++ digitsOf (readDigits 0 digits) := by
  induction digits using List.reverseRecOn with
  | nil => exact absurd rfl some
  | append_singleton front c ih =>
    have digit : c.isDigit = true := all c (by simp)
    have last := digitsOf_digitValue digit
    rw [readDigits_append_singleton]
    by_cases empty : front = []
    · subst empty
      exact ⟨0, by simpa [readDigits] using last.symm⟩
    obtain ⟨zeros, spelled⟩ := ih empty fun d inside => all d (by simp [inside])
    by_cases nothing : readDigits 0 front = 0
    · -- so far there are zeros only, the last of which is now one in front
      refine ⟨zeros + 1, ?_⟩
      rw [nothing, Nat.mul_zero, Nat.zero_add, last, List.replicate_succ']
      rw [nothing] at spelled
      rw [spelled]
      rfl
    · refine ⟨zeros, ?_⟩
      have joined := Nat.toDigits_append_toDigits (b := 10) (by decide) (Nat.pos_of_ne_zero nothing)
        (digitValue_lt digit)
      rw [digitsOf, ← joined, ← List.append_assoc]
      exact congrArg₂ (· ++ ·) spelled last.symm

end Decimal

/-! ## Keys that name positions -/

namespace Value

/-- The key is the position in digits, with zeros and perhaps a plus sign in front of it. -/
def Spells (key : String) (position : Nat) : Prop :=
  ∃ zeros, key = String.ofList (List.replicate zeros '0') ++ toString position ∨
    key = "+" ++ String.ofList (List.replicate zeros '0') ++ toString position

/-- The key spells the position, but not in the shortest way. -/
def IsVariant (key : String) (position : Nat) : Prop := Spells key position ∧ key ≠ toString position

/-- The characters behind a plus sign, if there is one. -/
def behindPlus (chars : List Char) : List Char :=
  match chars with
  | '+' :: rest => rest
  | all => all

theorem position?_eq (key : String) : position? key =
    if !(behindPlus key.toList).isEmpty && (behindPlus key.toList).all Char.isDigit then
      if Decimal.readDigits 0 (behindPlus key.toList) ≤ Double.lastPosition then
        some (Decimal.readDigits 0 (behindPlus key.toList))
      else none
    else none := rfl

theorem behindPlus_of_isDigit {chars : List Char} (first : ∀ c ∈ chars.head?, c.isDigit = true) :
    behindPlus chars = chars := by
  unfold behindPlus
  split
  · exact absurd (first '+' rfl) (by decide)
  · rfl

/-- A key spells a position exactly if zeros and the digits of the position stand behind the plus sign. -/
theorem spells_iff {key : String} {n : Nat} : Spells key n ↔
    ∃ zeros, behindPlus key.toList = List.replicate zeros '0' ++ Decimal.digitsOf n := by
  refine exists_congr fun zeros => ⟨?_, fun same => ?_⟩
  · rintro (rfl | rfl)
    · have plain := behindPlus_of_isDigit fun c first =>
        Decimal.isDigit_of_mem_zeros zeros n c (List.mem_of_mem_head? first)
      simpa [Decimal.digitsOf] using plain
    · simp [behindPlus, Decimal.digitsOf]
  · unfold behindPlus at same
    split at same
    · rename_i rest chars
      right
      rw [← String.toList_inj, chars, same]
      simp [Decimal.digitsOf]
    · left
      rw [← String.toList_inj, same]
      simp [Decimal.digitsOf]

/-- A key names a position if it spells it and the position fits into a word. -/
theorem position?_eq_some_iff {key : String} {n : Nat} :
    position? key = some n ↔ n ≤ Double.lastPosition ∧ Spells key n := by
  rw [spells_iff, position?_eq]
  constructor
  · intro found
    split at found
    · rename_i digits
      split at found
      · rename_i fits
        obtain ⟨some, all⟩ := Bool.and_eq_true_iff.1 digits
        obtain rfl := Option.some.inj found
        exact ⟨fits, Decimal.exists_eq_zeros_append (by simpa using some) (by simpa using all)⟩
      · cases found
    · cases found
  · rintro ⟨fits, zeros, same⟩
    have some : Decimal.digitsOf n ≠ [] := List.ne_nil_of_length_pos (Decimal.digitsOf_length_pos n)
    have all := List.all_eq_true.2 (Decimal.isDigit_of_mem_zeros zeros n)
    rw [same, all, Decimal.readDigits_zeros, if_pos fits]
    simp [some]

/-- The notation of a position spells it. -/
theorem spells_toString (n : Nat) : Spells (toString n) n := ⟨0, .inl (by simp)⟩

theorem Spells.unique {key : String} {m n : Nat} (h : Spells key m) (h' : Spells key n) : m = n := by
  obtain ⟨zeros, same⟩ := spells_iff.1 h
  obtain ⟨zeros', same'⟩ := spells_iff.1 h'
  rw [← Decimal.readDigits_zeros zeros m, ← same, same', Decimal.readDigits_zeros]

theorem position?_toString (n : Nat) :
    position? (toString n) = if n ≤ Double.lastPosition then some n else none := by
  split
  · exact position?_eq_some_iff.2 ⟨‹_›, spells_toString n⟩
  · rename_i large
    refine Option.eq_none_iff_forall_ne_some.2 fun m found => large ?_
    obtain ⟨fits, spells⟩ := position?_eq_some_iff.1 found
    rwa [(spells_toString n).unique spells]

end Value

/-! ## Texts of numbers that name positions -/

namespace Double

theorem text_ne_length (x : Double) : x.text ≠ "length" := by
  intro same
  obtain word | ⟨c, rest, chars, first⟩ := x.text_start
  · rw [same] at word
    exact absurd word (by decide)
  · have letter : "length".toList = 'l' :: "ength".toList := by decide
    rw [same, letter] at chars
    obtain rfl : 'l' = c := (List.cons.inj chars).1
    exact absurd first (by decide)

section
variable {x : Double} (isPosition : x.isPosition = true)
include isPosition

theorem isInteger_of_isPosition : x.isInteger = true := (Bool.and_eq_true_iff.1 isPosition).2

theorem isFinite_of_isPosition : x.isFinite = true :=
  (Bool.and_eq_true_iff.1 (isInteger_of_isPosition isPosition)).1

theorem negative_of_isPosition (positive : x.magnitude ≠ 0) : x.negative = false := by
  by_contra negative
  have ordered := (Bool.and_eq_true_iff.1 (Bool.and_eq_true_iff.1 isPosition).1).2
  have start : zero.rank = 0 := by decide
  rw [decide_eq_true_iff, start, rank, if_pos (by simpa using negative)] at ordered
  omega

theorem integerPart_of_zero (nothing : x.magnitude = 0) : x.integerPart = 0 := by
  have whole := integerPart_eq (isInteger_of_isPosition isPosition)
  rw [nothing, absolute_zero] at whole
  exact_mod_cast whole

theorem toPosition_eq_min : x.toPosition = min x.integerPart lastPosition := by
  have finite := of_decide_eq_true (isFinite_of_isPosition isPosition)
  have notNaN : x.isNaN = false := decide_eq_false (by omega)
  have notInfinite : x.isInfinite = false := beq_eq_false_iff_ne.2 finite.ne
  by_cases nothing : x.magnitude = 0
  · simp [toPosition, notNaN, notInfinite, integerPart_of_zero isPosition nothing]
  · simp [toPosition, notNaN, notInfinite, negative_of_isPosition isPosition nothing]

/-- Positions below `10 ^ 21` are written in digits. -/
theorem text_of_isPosition (small : x.integerPart < Nat.pow 10 21) : x.text = toString x.integerPart := by
  by_cases nothing : x.magnitude = 0
  · rw [integerPart_of_zero isPosition nothing]
    have written : x.text = "0" := by simp [text, isNaN, isInfinite, isZero, nothing, infiniteMagnitude]
    exact written
  · rw [text_eq_of_isFinite (isFinite_of_isPosition isPosition) nothing,
      if_pos ⟨isInteger_of_isPosition isPosition, small⟩, negative_of_isPosition isPosition nothing]
    exact String.empty_append

/-- A number that rounds to a double from `10 ^ 21` on does not fit into a word. -/
theorem lt_of_rounds_of_large (large : Nat.pow 10 21 ≤ x.integerPart) {n : Nat}
    (rounds : Rounds n x.magnitude) : lastPosition < n := by
  have word : absolute (1087 * Nat.pow 2 52) = 2 ^ 64 := by
    have value := absolute_pattern (p := 1086) (.inr (Nat.le_refl _)) (by decide)
    have pattern : 1087 * Nat.pow 2 52 = 1086 * Nat.pow 2 52 + Nat.pow 2 52 := by decide
    rw [pattern, value, show (((1086 : ℕ) : Int) - 1074) = 12 from rfl]
    norm_num
  have more : (10 : ℚ) ^ 21 ≤ absolute x.magnitude := by
    rw [← integerPart_eq (isInteger_of_isPosition isPosition)]
    exact_mod_cast large
  have above : 1087 * Nat.pow 2 52 < x.magnitude := by
    rw [← absolute_strictMono.lt_iff_lt, word]
    exact lt_of_lt_of_le (by norm_num) more
  -- even the double below reaches up to the end of a word, and the number is nearer to the one above it
  have next := absolute_strictMono (Nat.lt_succ_self (x.magnitude - 1))
  have bound : (2 ^ 64 : ℚ) < n :=
    calc (2 ^ 64 : ℚ) = absolute (1087 * Nat.pow 2 52) := word.symm
      _ ≤ absolute (x.magnitude - 1) := absolute_strictMono.monotone (Nat.le_sub_one_of_lt above)
      _ < middle (x.magnitude - 1) := by
        rw [middle]
        linarith
      _ ≤ n := rounds.low
  have last : lastPosition < 2 ^ 64 := by decide
  exact last.trans (by exact_mod_cast bound)

/-- Greater positions may be written otherwise, but what is written is too large for a word. -/
theorem position?_text_of_large (large : Nat.pow 10 21 ≤ x.integerPart) :
    Value.position? x.text = none := by
  have positive : x.magnitude ≠ 0 := by
    intro nothing
    rw [integerPart_of_zero isPosition nothing] at large
    exact absurd large (by decide)
  obtain ⟨body, written, numeral, rounds⟩ := text_of_isFinite (isFinite_of_isPosition isPosition) positive
  rw [negative_of_isPosition isPosition positive] at written
  -- the text starts with a digit, so it is taken as it is
  have plain : Value.behindPlus x.text.toList = body := by
    obtain ⟨c, rest, rfl, digit, -⟩ := numeral
    have first : ∀ d ∈ (c :: rest).head?, d.isDigit = true := by simpa using digit
    rw [written]
    simpa [Decimal.sign] using Value.behindPlus_of_isDigit first
  refine Option.eq_none_iff_forall_ne_some.2 fun n found => ?_
  obtain ⟨fits, spells⟩ := Value.position?_eq_some_iff.1 found
  obtain ⟨zeros, same⟩ := Value.spells_iff.1 spells
  rw [plain] at same
  -- and it has no point, so the position is the number that rounds to the double
  have value : numeralValue body = n := by
    have digits := Decimal.isDigit_of_mem_zeros zeros n
    have spelled := Decimal.readDigits_zeros zeros n
    rw [← same] at digits spelled
    rw [numeralValue_whole digits]
    exact congrArg Nat.cast spelled
  rw [value] at rounds
  exact absurd (lt_of_rounds_of_large isPosition large rounds) (Nat.not_lt.2 fits)

/-- The text of a number that is a position names this position, if it fits into a word. -/
theorem position?_text :
    Value.position? x.text = if x.integerPart ≤ lastPosition then some x.toPosition else none := by
  rcases Nat.lt_or_ge x.integerPart (Nat.pow 10 21) with small | large
  · rw [text_of_isPosition isPosition small, Value.position?_toString, toPosition_eq_min isPosition]
    split
    · rw [min_eq_left ‹_›]
    · rfl
  · have last : lastPosition < Nat.pow 10 21 := by decide
    rw [position?_text_of_large isPosition large, if_neg (by omega)]

end

end Double

/-! ## Members -/

namespace Value

theorem position?_length : position? "length" = none := by decide

section
variable {items : List Value} (fits : items.length ≤ Double.lastPosition) {key : String}

theorem mem_keys_array : key ∈ (array items).keys ↔ ∃ i < items.length, key = toString i := by
  simp only [keys, List.mem_map, List.mem_range, eq_comm]

theorem getIndex_object {entries : List (String × Value)} {x : Double} :
    (object entries).getIndex x = (object entries).get x.text := by
  unfold getIndex Located.getIndex
  exact Located.get_value _ _

include fits

theorem position?_of_spells {i : Nat} (inside : i < items.length) (spells : Spells key i) :
    position? key = some i :=
  position?_eq_some_iff.2 ⟨inside.le.trans fits, spells⟩

theorem ne_length_of_spells {i : Nat} (inside : i < items.length) (spells : Spells key i) :
    key ≠ "length" := by
  rintro rfl
  have found := position?_of_spells fits inside spells
  rw [position?_length] at found
  cases found

/-- An array has its length, and an element for every spelling of a position. -/
theorem hasKey_array_iff :
    (array items).hasKey key = true ↔ key = "length" ∨ ∃ i < items.length, Spells key i := by
  rw [hasKey, Bool.or_eq_true_iff, beq_iff_eq]
  refine or_congr_right ⟨fun found => ?_, ?_⟩
  · split at found
    · rename_i i named
      exact ⟨i, of_decide_eq_true found, (position?_eq_some_iff.1 named).2⟩
    · cases found
  · rintro ⟨i, inside, spells⟩
    rw [position?_of_spells fits inside spells]
    exact decide_eq_true inside

theorem get_array_of_spells {i : Nat} (inside : i < items.length) (spells : Spells key i) :
    (array items).get key = items[i] := by
  have found := position?_of_spells fits inside spells
  simp [get, part?, found, inside]

omit fits in
theorem get_array_of_not_spells (other : key ≠ "length") (nowhere : ∀ i < items.length, ¬ Spells key i) :
    (array items).get key = undefined := by
  have nothing : (array items).part? key = none := by
    rw [part?]
    split
    · rename_i i named
      have outside : items.length ≤ i :=
        Nat.le_of_not_lt fun inside => nowhere i inside (position?_eq_some_iff.1 named).2
      rw [List.getElem?_eq_none outside]
      rfl
    · rfl
  rw [get, nothing]
  simp [derived, length?, other]

end

end Value

namespace Located

/-- A number finds the element of an array that its text finds, at the same place. -/
theorem getIndex_array {items : List Value} (fits : items.length ≤ Double.lastPosition)
    (place : List Nat) (x : Double) :
    (Located.mk (.array items) place).getIndex x = (Located.mk (.array items) place).get x.text := by
  rw [getIndex]
  dsimp only
  split
  · rename_i isPosition
    have named := Double.position?_text isPosition
    have position := Double.toPosition_eq_min isPosition
    split at named
    · cases found : items[x.toPosition]? with
      | some item => simp [get, Value.part?, named, found]
      | none => simp [get, Value.part?, named, found, Value.derived, x.text_ne_length, Value.length?]
    · -- the position does not fit into a word, and no array reaches up to the last one that does
      rename_i large
      have outside : items.length ≤ x.toPosition := by omega
      simp [get, Value.part?, named, List.getElem?_eq_none outside, Value.derived, x.text_ne_length,
        Value.length?]
  · rfl

end Located

namespace Value

theorem getIndex_array {items : List Value} (fits : items.length ≤ Double.lastPosition) (x : Double) :
    (array items).getIndex x = (array items).get x.text := by
  rw [getIndex, Located.whole, Located.getIndex_array fits, Located.get_value]

/-- The text of a number finds nothing in a buffer. -/
theorem get_buffer (bytes : List UInt8) (x : Double) : (buffer bytes).get x.text = undefined := by
  simp [get, part?, derived, length?, x.text_ne_length]

/-- Where a number names a byte of a buffer it finds the byte, and otherwise nothing. -/
theorem getIndex_buffer (bytes : List UInt8) (x : Double) :
    (buffer bytes).getIndex x = undefined ↔ ¬ (x.isPosition = true ∧ x.toPosition < bytes.length) := by
  rw [getIndex, Located.getIndex]
  dsimp only [Located.whole]
  split
  · rename_i isPosition
    rcases Nat.lt_or_ge x.toPosition bytes.length with inside | outside
    · rw [List.getElem?_eq_getElem inside]
      simp [Located.computed, isPosition, inside]
    · rw [List.getElem?_eq_none outside]
      simp [Located.computed, outside]
  · rename_i other
    rw [Located.get_value, get_buffer]
    simp [other]

/-- How the ways to look something up agree. The members of an array are its length and its keys, but for
the variants of the keys: those are members though they are no keys. A number finds what its text finds,
but for the bytes of a buffer: their texts find nothing. The positions of an array fit into a word. -/
theorem access_coherent (items : List Value) (fits : items.length ≤ Double.lastPosition) :
    (∀ key, (∀ i < items.length, ¬ IsVariant key i) →
      ((array items).hasKey key = true ↔ key = "length" ∨ key ∈ (array items).keys) ∧
        (key ≠ "length" → key ∉ (array items).keys → (array items).get key = undefined)) ∧
    (∀ key i, (inside : i < items.length) → IsVariant key i →
      key ≠ "length" ∧ key ∉ (array items).keys ∧
        (array items).hasKey key = true ∧ (array items).get key = items[i]) ∧
    (∀ x, (array items).getIndex x = (array items).get x.text) ∧
    (∀ entries x, (object entries).getIndex x = (object entries).get x.text) ∧
    ∀ bytes x, (buffer bytes).getIndex x = (buffer bytes).get x.text ↔
      ¬ (x.isPosition = true ∧ x.toPosition < bytes.length) := by
  have shortest {key : String} {i : Nat} (usual : ¬ IsVariant key i) (spells : Spells key i) :
      key = toString i := by
    by_contra other
    exact usual ⟨spells, other⟩
  refine ⟨fun key usual => ⟨?_, fun other nokey => ?_⟩, fun key i inside variant => ?_, getIndex_array fits,
    fun entries x => getIndex_object, fun bytes x => ?_⟩
  · rw [hasKey_array_iff fits, mem_keys_array]
    refine or_congr_right (exists_congr fun i => and_congr_right fun inside => ⟨?_, ?_⟩)
    · exact shortest (usual i inside)
    · rintro rfl
      exact spells_toString i
  · refine get_array_of_not_spells other fun i inside spells => nokey (mem_keys_array.2 ?_)
    exact ⟨i, inside, shortest (usual i inside) spells⟩
  · obtain ⟨spells, other⟩ := variant
    refine ⟨ne_length_of_spells fits inside spells, fun among => ?_,
      (hasKey_array_iff fits).2 (.inr ⟨i, inside, spells⟩), get_array_of_spells fits inside spells⟩
    obtain ⟨j, -, same⟩ := mem_keys_array.1 among
    have position : i = j := spells.unique (same ▸ spells_toString j)
    exact other (position ▸ same)
  · rw [get_buffer, getIndex_buffer]

/-- Two zeros find the first element, like one zero, but are no key. -/
theorem get_zeros_of_singleton :
    [bool true].length ≤ Double.lastPosition ∧ IsVariant "00" 0 ∧ "00" ∉ (array [bool true]).keys ∧
      (array [bool true]).hasKey "00" = true ∧ (array [bool true]).get "00" = bool true := by
  have fits : [bool true].length ≤ Double.lastPosition := by decide
  have variant : IsVariant "00" 0 := ⟨⟨1, .inl (by decide)⟩, by decide⟩
  obtain ⟨-, nokey, member, found⟩ := (access_coherent [bool true] fits).2.1 "00" 0 Nat.one_pos variant
  exact ⟨fits, variant, nokey, member, found⟩

/-- A member of an array that is neither its length nor one of its keys, and a byte that its text does not
find. -/
theorem exists_incoherent_access :
    ((array [bool true]).hasKey "00" = true ∧ ¬ ("00" = "length" ∨ "00" ∈ (array [bool true]).keys)) ∧
      (buffer [9]).getIndex (Double.ofNat 0) ≠ (buffer [9]).get (Double.ofNat 0).text := by
  refine ⟨⟨by decide, by decide⟩, ?_⟩
  rw [get_buffer, ne_eq, getIndex_buffer, not_not]
  obtain ⟨isPosition, first⟩ := Double.toPosition_ofNat (n := 0) (by decide)
  exact ⟨isPosition, by rw [first]; decide⟩

end Value

end ShapeCheck
