import ShapeCheck.Proofs.Naming.Forms

set_option autoImplicit false

/-! # Names read from their ends

The name of a definition may be any text, with quotes and brackets that nothing closes, but then a mark
and the number of the definition stand behind it. So a name can be read from its end: a number behind a
mark tells how many characters in front of it belong to the definition, a quotation goes back to the
first quote without a backslash in front, and a closing bracket to the one that opens it.

All texts here are lists of characters from the last to the first.

Main fact: `Text.Backward.split` (a text can be told apart from the opening bracket in front of it).
-/

namespace ShapeCheck

namespace Text

/-! ## Numbers behind a mark -/

/-- The text ends with a mark and digits. -/
def IsNumbered (text : List Char) : Prop :=
  ∃ digits rest, digits ≠ [] ∧ (∀ c ∈ digits, c.isDigit = true) ∧ text = digits ++ '@' :: rest

theorem not_isNumbered_of_not_mem {text : List Char} (h : '@' ∉ text) : ¬ IsNumbered text := by
  rintro ⟨digits, rest, -, -, rfl⟩
  exact h (by simp)

theorem ne_at_of_isDigit {c : Char} (h : c.isDigit = true) : c ≠ '@' := by
  rintro rfl
  revert h
  decide

/-- A number behind a mark can be read off the text. -/
theorem digits_append_injective {m n : Nat} {rest rest' : List Char}
    (same : (Nat.toDigits 10 m).reverse ++ '@' :: rest = (Nat.toDigits 10 n).reverse ++ '@' :: rest') :
    m = n ∧ rest = rest' := by
  have digits (k : Nat) : ∀ c ∈ (Nat.toDigits 10 k).reverse, (c != '@') = true := fun c inside =>
    bne_iff_ne.2 (ne_at_of_isDigit (Decimal.isDigit_of_mem_digitsOf (n := k) (List.mem_reverse.1 inside)))
  have front := congrArg (List.takeWhile (· != '@')) same
  rw [List.takeWhile_append_of_pos (digits m), List.takeWhile_append_of_pos (digits n)] at front
  have numbers : (Nat.toDigits 10 m).reverse = (Nat.toDigits 10 n).reverse := by simpa using front
  rw [numbers] at same
  have read := congrArg (fun digits => Nat.ofDigitChars 10 digits 0) (List.reverse_inj.1 numbers)
  simp only [Nat.ofDigitChars_ten_toDigits] at read
  exact ⟨read, by simpa using same⟩

theorem isDigit_of_mem_reverse {n : Nat} {c : Char} (h : c ∈ (Nat.toDigits 10 n).reverse) :
    c.isDigit = true :=
  Decimal.isDigit_of_mem_digitsOf (n := n) (List.mem_reverse.1 h)

theorem isNumbered_digits (n : Nat) (rest : List Char) :
    IsNumbered ((Nat.toDigits 10 n).reverse ++ '@' :: rest) :=
  ⟨_, rest, by simp, fun _ => isDigit_of_mem_reverse, rfl⟩

theorem IsNumbered.exists_digit {text : List Char} (h : IsNumbered text) :
    ∃ c tail, text = c :: tail ∧ c.isDigit = true := by
  obtain ⟨digits, rest, some, isDigit, rfl⟩ := h
  obtain ⟨c, others, rfl⟩ := List.exists_cons_of_ne_nil some
  exact ⟨c, _, rfl, isDigit c List.mem_cons_self⟩

theorem not_isNumbered_cons {c : Char} (other : c.isDigit = false) (rest : List Char) :
    ¬ IsNumbered (c :: rest) := by
  intro numbered
  obtain ⟨d, tail, same, digit⟩ := numbered.exists_digit
  rw [← (List.cons.inj same).1, other] at digit
  cases digit

/-! ## Escaped quotes -/

/-- Every quote has a backslash in front. -/
def Escaped : List Char → Prop
  | [] => True
  | c :: rest => (c = '"' → ∃ tail, rest = '\\' :: tail) ∧ Escaped rest

theorem Escaped.append {text text' : List Char} (h : Escaped text) (h' : Escaped text') :
    Escaped (text ++ text') := by
  induction text with
  | nil => exact h'
  | cons c rest ih =>
    refine ⟨fun quote => ?_, ih h.2⟩
    obtain ⟨tail, rfl⟩ := h.1 quote
    exact ⟨_, rfl⟩

theorem Escaped.of_ne {text : List Char} (h : ∀ c ∈ text, c ≠ '"') : Escaped text := by
  induction text with
  | nil => trivial
  | cons c rest ih =>
    exact ⟨fun quote => absurd quote (h c (by simp)), ih fun d inside => h d (by simp [inside])⟩

theorem escaped_spellJson (c : Char) : Escaped (spellJson c).reverse := by
  rcases spellJson_cases c with ⟨d, -, spelled⟩ | ⟨control, spelled⟩ | ⟨other, -, spelled⟩ <;>
    rw [spelled]
  · exact ⟨fun _ => ⟨[], rfl⟩, fun quote => absurd quote (by decide), trivial⟩
  · have plain : ∀ n < 0x20, ∀ d ∈ '\\' :: 'u' :: hex 4 n, d ≠ '"' := by decide
    exact .of_ne fun d inside => plain _ control d (List.mem_reverse.1 inside)
  · exact .of_ne (by simpa using other)

theorem escaped_spelled (chars : List Char) : Escaped (chars.flatMap spellJson).reverse := by
  induction chars with
  | nil => trivial
  | cons c rest ih =>
    rw [List.flatMap_cons, List.reverse_append]
    exact ih.append (escaped_spellJson c)

/-- A quotation goes back to the first quote without a backslash in front. -/
theorem Escaped.split {text text' rest rest' : List Char} (h : Escaped text) (h' : Escaped text')
    (start : ∀ tail, rest ≠ '\\' :: tail) (start' : ∀ tail, rest' ≠ '\\' :: tail)
    (same : text ++ '"' :: rest = text' ++ '"' :: rest') : text = text' ∧ rest = rest' := by
  induction text generalizing text' with
  | nil =>
    cases text' with
    | nil => exact ⟨rfl, (List.cons.inj same).2⟩
    | cons c others =>
      obtain ⟨rfl, tails⟩ := List.cons.inj same
      obtain ⟨tail, rfl⟩ := h'.1 rfl
      exact absurd tails (start _)
  | cons c others ih =>
    cases text' with
    | nil =>
      obtain ⟨rfl, tails⟩ := List.cons.inj same
      obtain ⟨tail, rfl⟩ := h.1 rfl
      exact absurd tails.symm (start' _)
    | cons d others' =>
      obtain ⟨rfl, tails⟩ := List.cons.inj same
      obtain ⟨rfl, rest⟩ := ih h.2 h'.2 tails
      exact ⟨rfl, rest⟩

/-! ## Texts that can be read backwards -/

/-- The character is neither a bracket or a quote nor one of those that are read with others. -/
def IsPlain (c : Char) : Prop := isMark c = false ∧ c ≠ '@' ∧ c ≠ '\\'

/-- The text can be read from its end. In front of the mark and a number stand the characters that
`base` tells for the number. -/
inductive Backward (base : Nat → List Char) : List Char → Prop
  | nil : Backward base []
  | char {c : Char} {rest : List Char} :
      IsPlain c → ¬ IsNumbered (c :: rest) → Backward base rest → Backward base (c :: rest)
  | numbered {rest : List Char} (n : Nat) :
      Backward base rest → Backward base ((Nat.toDigits 10 n).reverse ++ '@' :: (base n ++ rest))
  | quoted {spelled rest : List Char} :
      Escaped spelled → Backward base rest → Backward base ('"' :: (spelled ++ '"' :: rest))
  | bracketed {inner rest : List Char} {pair : Char × Char} :
      pair ∈ brackets → Backward base inner → Backward base rest →
        Backward base (pair.2 :: (inner ++ pair.1 :: rest))

/-! ## How a text is read -/

/-- What is read next. -/
inductive Item
  | none
  | plain
  | numbered
  | quoted
  | closing
  | opening
  deriving DecidableEq

open Classical in
/-- What is read next, as the end of the text tells. -/
noncomputable def nextItem (text : List Char) : Item :=
  if IsNumbered text then .numbered
  else
    match text with
    | [] => .none
    | c :: _ =>
      if c = '"' then .quoted
      else if ∃ pair ∈ brackets, c = pair.2 then .closing
      else if ∃ pair ∈ brackets, c = pair.1 then .opening
      else .plain

section
variable {c : Char} {pair : Char × Char} (listed : pair ∈ brackets) (rest : List Char)

theorem nextItem_numbered (n : Nat) :
    nextItem ((Nat.toDigits 10 n).reverse ++ '@' :: rest) = .numbered :=
  if_pos (isNumbered_digits n rest)

theorem nextItem_quoted : nextItem ('"' :: rest) = .quoted := by
  rw [nextItem, if_neg (not_isNumbered_cons (by decide) rest)]
  simp

include listed

theorem isDigit_bracket : pair.1.isDigit = false ∧ pair.2.isDigit = false := by
  have all : ∀ p ∈ brackets, p.1.isDigit = false ∧ p.2.isDigit = false := by decide
  exact all pair listed

theorem nextItem_closing : nextItem (pair.2 :: rest) = .closing := by
  rw [nextItem, if_neg (not_isNumbered_cons (isDigit_bracket listed).2 rest)]
  rw [if_neg (isMark_bracket listed).2.2.2, if_pos ⟨pair, listed, rfl⟩]

theorem nextItem_opening : nextItem (pair.1 :: rest) = .opening := by
  have notClosing : ¬ ∃ other ∈ brackets, pair.1 = other.2 := by
    rintro ⟨other, listed', same⟩
    exact opening_ne_closing listed listed' same
  rw [nextItem, if_neg (not_isNumbered_cons (isDigit_bracket listed).1 rest)]
  rw [if_neg (isMark_bracket listed).2.2.1, if_neg notClosing, if_pos ⟨pair, listed, rfl⟩]

omit listed in
theorem nextItem_plain (plain : IsPlain c) (free : ¬ IsNumbered (c :: rest)) :
    nextItem (c :: rest) = .plain := by
  have notQuote : c ≠ '"' := by
    rintro rfl
    exact absurd plain.1 (by decide)
  have notClosing : ¬ ∃ pair ∈ brackets, c = pair.2 := by
    rintro ⟨pair, listed, rfl⟩
    exact absurd plain.1 (by rw [(isMark_bracket listed).2.1]; decide)
  have notOpening : ¬ ∃ pair ∈ brackets, c = pair.1 := by
    rintro ⟨pair, listed, rfl⟩
    exact absurd plain.1 (by rw [(isMark_bracket listed).1]; decide)
  rw [nextItem, if_neg free]
  rw [if_neg notQuote, if_neg notClosing, if_neg notOpening]

end

namespace Backward

variable {base : Nat → List Char} {text text' rest rest' : List Char} {pair pair' : Char × Char}

/-- A number behind a mark does not reach over an opening bracket. -/
theorem isNumbered_of_append (listed : pair ∈ brackets)
    (h : IsNumbered (text ++ pair.1 :: rest)) : IsNumbered text := by
  obtain ⟨digits, tail, some, isDigit, same⟩ := h
  rcases List.append_eq_append_iff.1 same with ⟨bs, rfl, tails⟩ | ⟨as, rfl, tails⟩
  · cases bs with
    | nil =>
      have all : ∀ p ∈ brackets, p.1 ≠ '@' := by decide
      exact absurd (List.cons.inj tails).1 (all pair listed)
    | cons d bs =>
      obtain ⟨rfl, -⟩ := List.cons.inj tails
      have digit := isDigit pair.1 (by simp)
      rw [(isDigit_bracket listed).1] at digit
      cases digit
  · cases as with
    | nil =>
      have all : ∀ p ∈ brackets, p.1 ≠ '@' := by decide
      exact absurd (List.cons.inj tails).1.symm (all pair listed)
    | cons d as =>
      obtain ⟨rfl, -⟩ := List.cons.inj tails
      exact ⟨digits, as, some, isDigit, rfl⟩

/-- What is read next does not depend on what stands in front of an opening bracket. -/
theorem nextItem_append (h : Backward base text) (listed : pair ∈ brackets) (rest : List Char) :
    nextItem (text ++ pair.1 :: rest) = if text = [] then .opening else nextItem text := by
  cases h with
  | nil => exact nextItem_opening listed rest
  | char plain free =>
    rw [if_neg (by simp), nextItem_plain _ plain free]
    exact nextItem_plain _ plain fun numbered => free (isNumbered_of_append listed numbered)
  | numbered n =>
    rw [if_neg (by simp), nextItem_numbered, List.append_assoc, List.cons_append, nextItem_numbered]
  | quoted => rw [if_neg (by simp), nextItem_quoted, List.cons_append, nextItem_quoted]
  | bracketed listed' =>
    rw [if_neg (by simp), nextItem_closing listed', List.cons_append, nextItem_closing listed']

section
variable (h : Backward base text) (listed : pair ∈ brackets)
include h listed

theorem eq_nil (item : nextItem (text ++ pair.1 :: rest) = Item.opening) :
    text = [] := by
  rw [h.nextItem_append listed] at item
  cases h with
  | nil => rfl
  | char plain free => simp [nextItem_plain _ plain free] at item
  | numbered n => simp [nextItem_numbered] at item
  | quoted => simp [nextItem_quoted] at item
  | bracketed listed' => simp [nextItem_closing listed'] at item

theorem eq_char (item : nextItem (text ++ pair.1 :: rest) = Item.plain) :
    ∃ c below, text = c :: below ∧ Backward base below := by
  rw [h.nextItem_append listed] at item
  cases h with
  | nil => simp at item
  | char _ _ below => exact ⟨_, _, rfl, below⟩
  | numbered n => simp [nextItem_numbered] at item
  | quoted => simp [nextItem_quoted] at item
  | bracketed listed' => simp [nextItem_closing listed'] at item

theorem eq_numbered (item : nextItem (text ++ pair.1 :: rest) = Item.numbered) :
    ∃ n below, text = (Nat.toDigits 10 n).reverse ++ '@' :: (base n ++ below) ∧
      Backward base below := by
  rw [h.nextItem_append listed] at item
  cases h with
  | nil => simp at item
  | char plain free => simp [nextItem_plain _ plain free] at item
  | numbered n below => exact ⟨n, _, rfl, below⟩
  | quoted => simp [nextItem_quoted] at item
  | bracketed listed' => simp [nextItem_closing listed'] at item

theorem eq_quoted (item : nextItem (text ++ pair.1 :: rest) = Item.quoted) :
    ∃ spelled below, text = '"' :: (spelled ++ '"' :: below) ∧ Escaped spelled ∧
      Backward base below := by
  rw [h.nextItem_append listed] at item
  cases h with
  | nil => simp at item
  | char plain free => simp [nextItem_plain _ plain free] at item
  | numbered n => simp [nextItem_numbered] at item
  | quoted escaped below => exact ⟨_, _, rfl, escaped, below⟩
  | bracketed listed' => simp [nextItem_closing listed'] at item

theorem eq_bracketed (item : nextItem (text ++ pair.1 :: rest) = Item.closing) :
    ∃ inner below, ∃ other ∈ brackets, text = other.2 :: (inner ++ other.1 :: below) ∧
      Backward base inner ∧ Backward base below := by
  rw [h.nextItem_append listed] at item
  cases h with
  | nil => simp at item
  | char plain free => simp [nextItem_plain _ plain free] at item
  | numbered n => simp [nextItem_numbered] at item
  | quoted => simp [nextItem_quoted] at item
  | bracketed listed' inside below => exact ⟨_, _, _, listed', rfl, inside, below⟩

/-- A quotation is never behind a backslash. -/
theorem append_ne_backslash (rest tail : List Char) :
    text ++ pair.1 :: rest ≠ '\\' :: tail := by
  intro same
  cases h with
  | nil =>
    have all : ∀ p ∈ brackets, p.1 ≠ '\\' := by decide
    exact all pair listed (List.cons.inj same).1
  | char plain => exact plain.2.2 (List.cons.inj same).1
  | numbered n =>
    obtain ⟨d, others, chars, digit⟩ := (isNumbered_digits n (base n ++ _)).exists_digit
    rw [chars] at same
    rw [(List.cons.inj same).1] at digit
    revert digit
    decide
  | quoted => exact absurd (List.cons.inj same).1 (by decide)
  | bracketed listed' =>
    have all : ∀ p ∈ brackets, p.2 ≠ '\\' := by decide
    exact all _ listed' (List.cons.inj same).1

end

/-- A text can be told apart from an opening bracket in front of it. -/
theorem split (h : Backward base text) (h' : Backward base text') (listed : pair ∈ brackets)
    (listed' : pair' ∈ brackets) (same : text ++ pair.1 :: rest = text' ++ pair'.1 :: rest') :
    text = text' ∧ pair = pair' ∧ rest = rest' := by
  have item := congrArg nextItem same
  induction h generalizing text' pair pair' rest rest' with
  | nil =>
    rw [List.nil_append, nextItem_opening listed] at item
    obtain rfl := h'.eq_nil listed' item.symm
    obtain ⟨first, tails⟩ := List.cons.inj same
    exact ⟨rfl, opening_injective listed listed' first, tails⟩
  | @char c text plain free below ih =>
    have started : nextItem (c :: text ++ pair.1 :: rest) = .plain :=
      nextItem_plain _ plain fun numbered => free (isNumbered_of_append listed numbered)
    obtain ⟨d, others, rfl, below'⟩ := h'.eq_char listed' (item.symm.trans started)
    obtain ⟨rfl, tails⟩ := List.cons.inj same
    obtain ⟨rfl, found⟩ := ih below' listed listed' tails (congrArg nextItem tails)
    exact ⟨rfl, found⟩
  | @numbered text n below ih =>
    rw [List.append_assoc, List.cons_append] at same item
    rw [nextItem_numbered] at item
    obtain ⟨n', others, rfl, below'⟩ := h'.eq_numbered listed' item.symm
    rw [List.append_assoc (List.reverse _), List.cons_append] at same
    obtain ⟨rfl, tails⟩ := digits_append_injective same
    rw [List.append_assoc, List.append_assoc, List.append_cancel_left_eq] at tails
    obtain ⟨rfl, found⟩ := ih below' listed listed' tails (congrArg nextItem tails)
    exact ⟨rfl, found⟩
  | @quoted spelled text escaped below ih =>
    rw [List.cons_append, nextItem_quoted] at item
    obtain ⟨spelled', others, rfl, escaped', below'⟩ := h'.eq_quoted listed' item.symm
    simp only [List.cons_append, List.append_assoc, List.cons.injEq, true_and] at same
    obtain ⟨rfl, tails⟩ := escaped.split escaped' (below.append_ne_backslash listed rest)
      (below'.append_ne_backslash listed' rest') same
    obtain ⟨rfl, found⟩ := ih below' listed listed' tails (congrArg nextItem tails)
    exact ⟨rfl, found⟩
  | @bracketed inner text own inside _ below ihInner ih =>
    rw [List.cons_append, nextItem_closing inside] at item
    obtain ⟨inner', others, own', inside', rfl, closed, below'⟩ := h'.eq_bracketed listed' item.symm
    simp only [List.cons_append, List.append_assoc, List.cons.injEq] at same
    obtain ⟨rfl, rfl, tails⟩ := ihInner closed inside inside' same.2 (congrArg nextItem same.2)
    obtain ⟨rfl, found⟩ := ih below' listed listed' tails (congrArg nextItem tails)
    exact ⟨rfl, found⟩

/-! ## Putting texts together -/

theorem ne_at (h : Backward base text) (tail : List Char) : text ≠ '@' :: tail := by
  rintro rfl
  generalize whole : '@' :: tail = text at h
  cases h with
  | nil => cases whole
  | char plain => exact plain.2.1 (List.cons.inj whole).1.symm
  | numbered n =>
    obtain ⟨d, others, chars, digit⟩ := (isNumbered_digits n (base n ++ _)).exists_digit
    exact ne_at_of_isDigit digit (List.cons.inj (whole.trans chars)).1.symm
  | quoted => cases whole
  | bracketed listed =>
    have all : ∀ p ∈ brackets, '@' ≠ p.2 := by decide
    exact all _ listed (List.cons.inj whole).1

/-- Digits at the start of a text must not meet a number behind a mark. -/
theorem append (h : Backward base text) (h' : Backward base text')
    (apart : IsNumbered text' → ∀ c, [c] <:+ text → c.isDigit = false) :
    Backward base (text ++ text') := by
  induction h with
  | nil => exact h'
  | @char c rest plain free _ ih =>
    refine .char plain (fun numbered => ?_)
      (ih fun numbered d last => apart numbered d (last.trans (List.suffix_cons c rest)))
    obtain ⟨digits, tail, some, isDigit, same⟩ := numbered
    rcases List.append_eq_append_iff.1 (show (c :: rest) ++ text' = digits ++ '@' :: tail from same) with
      ⟨bs, rfl, tails⟩ | ⟨as, inside, tails⟩
    · cases bs with
      | nil => exact h'.ne_at _ tails
      | cons d bs =>
        have numbered : IsNumbered text' :=
          ⟨d :: bs, tail, by simp, fun e inside => isDigit e (List.mem_append_right _ inside), tails⟩
        obtain ⟨before, last, chars⟩ : ∃ before last, c :: rest = before ++ [last] :=
          ⟨_, _, (List.dropLast_append_getLast (List.cons_ne_nil c rest)).symm⟩
        have other := apart numbered last ⟨before, chars.symm⟩
        have digit := isDigit last (by rw [chars]; simp)
        rw [other] at digit
        cases digit
    · cases as with
      | nil => exact h'.ne_at _ tails.symm
      | cons d as =>
        obtain ⟨rfl, -⟩ := List.cons.inj tails
        exact free ⟨digits, as, some, isDigit, inside⟩
  | @numbered rest n _ ih =>
    rw [List.append_assoc, List.cons_append, List.append_assoc]
    refine .numbered n (ih fun numbered d last => apart numbered d (last.trans ?_))
    exact ⟨(Nat.toDigits 10 n).reverse ++ '@' :: base n, by simp⟩
  | @quoted spelled rest escaped _ ih =>
    rw [List.cons_append, List.append_assoc, List.cons_append]
    refine .quoted escaped (ih fun numbered d last => apart numbered d (last.trans ?_))
    exact ⟨'"' :: (spelled ++ ['"']), by simp⟩
  | @bracketed inner rest pair listed inside _ _ ih =>
    rw [List.cons_append, List.append_assoc, List.cons_append]
    refine .bracketed listed inside (ih fun numbered d last => apart numbered d (last.trans ?_))
    exact ⟨pair.2 :: (inner ++ [pair.1]), by simp⟩

theorem of_isPlain {text : List Char} (h : ∀ c ∈ text, IsPlain c) : Backward base text := by
  induction text with
  | nil => exact .nil
  | cons c rest ih =>
    have free : '@' ∉ c :: rest := fun inside => (h '@' inside).2.1 rfl
    exact .char (h c (by simp)) (not_isNumbered_of_not_mem free) (ih fun d inside => h d (by simp [inside]))

end Backward

end Text

end ShapeCheck
