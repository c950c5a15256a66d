import Mathlib.Data.List.TakeWhile
import ShapeCheck.Json.Relaxed
import ShapeCheck.Json.Token

set_option autoImplicit false

/-! # Where tokens end

A token that is not broken takes its own characters off a text. Only a numeral has to be told from what follows:
it would go on with a digit, a point or the letter of an exponent. All other tokens end where they end, whatever
stands behind them. In particular a string ends at the quote that closes it, so that a reader of characters that
only knows quotes and backslashes comes out of the string at the same place.

Main facts: `takes_lexNumeral`, `lexString_eq` and `lexToken_eq` (what is taken off a text, and that the same is
taken off in front of another text), `CopiesStrings.append` (a reader of characters gets past a string).
-/

namespace ShapeCheck

namespace Json

/-! ## Numerals -/

/-- A character of a numeral or of a word. -/
def isScalarChar (c : Char) : Bool := c.isAlphanum || c == '+' || c == '-' || c == '.'

/-- A numeral goes on with the character. -/
def continuesNumeral (c : Char) : Bool := c.isDigit || c == '.' || c == 'e' || c == 'E'

/-- No numeral goes on with the text. -/
def Stops (text : List Char) : Prop := ∀ c ∈ text.head?, continuesNumeral c = false

theorem stops_nil : Stops [] := nofun

theorem stops_cons {c : Char} {rest : List Char} : Stops (c :: rest) ↔ continuesNumeral c = false := by
  simp [Stops]

/-- The token says that the text has stopped being JSON. -/
def Token.isBroken : Token → Bool
  | .brokenString _ | .broken _ => true
  | _ => false

/-- The token is a numeral. -/
def Token.isNumber : Token → Bool
  | .number _ => true
  | _ => false

/-- A reader takes a numeral off a text, and takes the same characters off in front of any text with which
numerals do not go on. -/
def Takes (lex : List Char → Token × List Char) (text : List Char) (token : Token) (rest : List Char) : Prop :=
  token.isNumber = true ∧ ∃ part, text = part ++ rest ∧ (∀ c ∈ part, isScalarChar c = true) ∧
    (∀ c ∈ rest.head?, c.isDigit = false) ∧ ∀ tail, Stops tail → lex (part ++ tail) = (token, tail)

theorem isScalarChar_of_isDigit {c : Char} (digit : c.isDigit = true) : isScalarChar c = true := by
  simp [isScalarChar, Char.isAlphanum, digit]

theorem scalars_of_digits {digits : List Char} (all : ∀ c ∈ digits, c.isDigit = true) :
    ∀ c ∈ digits, isScalarChar c = true :=
  fun c inside => isScalarChar_of_isDigit (all c inside)

theorem head?_not_digit_of_stops {text : List Char} (stops : Stops text) :
    ∀ c ∈ text.head?, c.isDigit = false := by
  intro c first
  have other := stops c first
  unfold continuesNumeral at other
  grind

/-- In front of another text that is no digit either the text does not start with a digit. -/
theorem head?_append_not_digit {part rest tail : List Char}
    (first : ∀ c ∈ (part ++ rest).head?, c.isDigit = false) (stops : Stops tail) :
    ∀ c ∈ (part ++ tail).head?, c.isDigit = false := by
  cases part with
  | nil => exact head?_not_digit_of_stops stops
  | cons d part => exact first

/-- Digits in front of a text that does not start with one. -/
theorem span_digits {digits tail : List Char} (all : ∀ c ∈ digits, c.isDigit = true)
    (first : ∀ c ∈ tail.head?, c.isDigit = false) :
    (digits ++ tail).takeWhile Char.isDigit = digits ∧ (digits ++ tail).dropWhile Char.isDigit = tail := by
  rw [List.takeWhile_append_of_pos all, List.dropWhile_append_of_pos all]
  cases tail with
  | nil => exact ⟨List.append_nil digits, rfl⟩
  | cons c rest =>
    have other : ¬ c.isDigit = true := by simp [first c rfl]
    rw [List.takeWhile_cons_of_neg other, List.dropWhile_cons_of_neg other]
    exact ⟨List.append_nil digits, rfl⟩

/-- A text is digits and what does not start with one. -/
theorem exists_digits (text : List Char) :
    ∃ digits rest, text = digits ++ rest ∧ (∀ c ∈ digits, c.isDigit = true) ∧
      ∀ c ∈ rest.head?, c.isDigit = false := by
  refine ⟨text.takeWhile Char.isDigit, text.dropWhile Char.isDigit, List.takeWhile_append_dropWhile.symm,
    fun c => List.mem_takeWhile_imp, fun c first => ?_⟩
  have other := List.head?_dropWhile_not Char.isDigit text
  rw [first] at other
  simpa using other

/-- The digits of an exponent, behind its sign. -/
def lexDigits (negative : Bool) (digits : Nat) (exponent : Int) (down : Bool) (text : List Char) :
    Token × List Char :=
  let power := text.takeWhile Char.isDigit
  let rest := text.dropWhile Char.isDigit
  if power.isEmpty then (breakNumeral rest, [])
  else
    let size : Int := Decimal.readDigits 0 power
    (.number ⟨⟨negative, digits, exponent + (if down then -size else size)⟩, false⟩, rest)

theorem lexExponent_eq (negative : Bool) (digits : Nat) (exponent : Int) (text : List Char) :
    lexExponent negative digits exponent text =
      match text with
      | '-' :: rest => lexDigits negative digits exponent true rest
      | '+' :: rest => lexDigits negative digits exponent false rest
      | _ => lexDigits negative digits exponent false text := by
  cases text with
  | nil => rfl
  | cons c rest =>
    by_cases minus : c = '-'
    · rw [minus]
      rfl
    by_cases plus : c = '+'
    · rw [plus]
      rfl
    · simp [lexExponent, lexDigits, minus, plus]

section

variable {negative : Bool} {digits : Nat} {exponent : Int} {text rest : List Char} {token : Token}

/-- Digits are taken off, of which there is one. -/
theorem lexDigits_takes {down : Bool} (read : lexDigits negative digits exponent down text = (token, rest))
    (whole : token.isBroken = false) :
    token.isNumber = true ∧ ∃ d part, text = d :: part ++ rest ∧ (∀ c ∈ d :: part, c.isDigit = true) ∧
      (∀ c ∈ rest.head?, c.isDigit = false) ∧
      ∀ tail, Stops tail → lexDigits negative digits exponent down (d :: part ++ tail) = (token, tail) := by
  obtain ⟨power, after, rfl, all, behind⟩ := exists_digits text
  obtain ⟨taken, left⟩ := span_digits all behind
  unfold lexDigits at read ⊢
  simp only [taken, left] at read
  cases power with
  | nil =>
    cases read
    cases whole
  | cons d part =>
    cases read
    refine ⟨rfl, d, part, rfl, all, behind, fun tail stops => ?_⟩
    obtain ⟨taken, left⟩ := span_digits all (head?_not_digit_of_stops stops)
    simp only [taken, left]
    rfl

theorem takes_lexExponent (read : lexExponent negative digits exponent text = (token, rest))
    (whole : token.isBroken = false) : Takes (lexExponent negative digits exponent) text token rest := by
  rw [lexExponent_eq] at read
  split at read
  · obtain ⟨isNumber, d, part, rfl, all, behind, again⟩ := lexDigits_takes read whole
    refine ⟨isNumber, '-' :: d :: part, rfl, ?_, behind, again⟩
    exact List.forall_mem_cons.2 ⟨by decide, scalars_of_digits all⟩
  · obtain ⟨isNumber, d, part, rfl, all, behind, again⟩ := lexDigits_takes read whole
    refine ⟨isNumber, '+' :: d :: part, rfl, ?_, behind, again⟩
    exact List.forall_mem_cons.2 ⟨by decide, scalars_of_digits all⟩
  · obtain ⟨isNumber, d, part, rfl, all, behind, again⟩ := lexDigits_takes read whole
    refine ⟨isNumber, d :: part, rfl, scalars_of_digits all, behind, fun tail stops => ?_⟩
    rw [lexExponent_eq, ← again tail stops]
    -- a digit is no sign
    have digit := all d List.mem_cons_self
    split
    · rename_i same
      cases same
      cases digit
    · rename_i same
      cases same
      cases digit
    · rfl

theorem takes_lexPower {whole : Bool} (read : lexPower negative digits exponent whole text = (token, rest))
    (unbroken : token.isBroken = false) (first : ∀ c ∈ text.head?, c.isDigit = false) :
    Takes (lexPower negative digits exponent whole) text token rest := by
  have exponentiated (letter : Char) (letters : letter = 'e' ∨ letter = 'E') {text : List Char}
      (read : lexExponent negative digits exponent text = (token, rest)) :
      Takes (lexPower negative digits exponent whole) (letter :: text) token rest := by
    obtain ⟨isNumber, part, rfl, all, behind, again⟩ := takes_lexExponent read unbroken
    have plain : isScalarChar letter = true := by
      rcases letters with rfl | rfl <;> decide
    refine ⟨isNumber, letter :: part, rfl, List.forall_mem_cons.2 ⟨plain, all⟩, behind, fun tail stops => ?_⟩
    rw [← again tail stops]
    rcases letters with rfl | rfl <;> rfl
  unfold lexPower at read
  split at read
  · exact exponentiated 'e' (.inl rfl) read
  · exact exponentiated 'E' (.inr rfl) read
  · cases read
    refine ⟨rfl, [], rfl, nofun, first, fun tail stops => ?_⟩
    rw [List.nil_append]
    unfold lexPower
    split
    · cases stops_cons.1 stops
    · cases stops_cons.1 stops
    · rfl

theorem lexFraction_eq_lexPower (other : ∀ behind, text ≠ '.' :: behind) :
    lexFraction negative digits text = lexPower negative digits 0 true text := by
  unfold lexFraction
  split
  · exact absurd rfl (other _)
  · rfl

theorem takes_lexFraction (read : lexFraction negative digits text = (token, rest))
    (whole : token.isBroken = false) (first : ∀ c ∈ text.head?, c.isDigit = false) :
    Takes (lexFraction negative digits) text token rest := by
  by_cases point : ∃ behind, text = '.' :: behind
  · obtain ⟨text, rfl⟩ := point
    obtain ⟨places, after, rfl, all, next⟩ := exists_digits text
    obtain ⟨taken, left⟩ := span_digits all next
    rw [lexFraction] at read
    simp only [taken, left] at read
    split at read
    · cases read
      cases whole
    · rename_i some
      obtain ⟨isNumber, part, rfl, plain, behind, again⟩ := takes_lexPower read whole next
      refine ⟨isNumber, '.' :: (places ++ part), ?_, ?_, behind, fun tail stops => ?_⟩
      · rw [List.cons_append, List.append_assoc]
      · exact List.forall_mem_cons.2 ⟨by decide, List.forall_mem_append.2 ⟨scalars_of_digits all, plain⟩⟩
      · obtain ⟨taken, left⟩ := span_digits all (head?_append_not_digit next stops)
        rw [← again tail stops, List.cons_append, List.append_assoc, lexFraction]
        simp only [taken, left, some]
        rfl
  · rw [not_exists] at point
    rw [lexFraction_eq_lexPower point] at read
    obtain ⟨isNumber, part, rfl, plain, behind, again⟩ := takes_lexPower read whole first
    refine ⟨isNumber, part, rfl, plain, behind, fun tail stops => ?_⟩
    rw [← again tail stops]
    refine lexFraction_eq_lexPower fun after starts => ?_
    cases part with
    | nil =>
      rw [List.nil_append] at starts
      rw [starts] at stops
      cases stops_cons.1 stops
    | cons c part =>
      rw [List.cons_append, List.cons.injEq] at starts
      exact point _ (congrArg (· :: (part ++ rest)) starts.1)

/-- No digit stands behind a leading zero. -/
def StandsAlone (text : List Char) : Prop := ∀ d behind, text = '0' :: d :: behind → d.isDigit = false

theorem standsAlone_append {digits text text' : List Char} (alone : StandsAlone (digits ++ text))
    (first : ∀ c ∈ text'.head?, c.isDigit = false) : StandsAlone (digits ++ text') := by
  intro d behind starts
  match digits with
  | [] =>
    -- the text starts with a zero, which is a digit
    have zero := first '0' (by rw [show text' = _ from starts]; rfl)
    cases zero
  | [z] => exact first d (by rw [show text' = _ from (List.cons.inj starts).2]; rfl)
  | z :: e :: digits =>
    obtain ⟨rfl, behindZero⟩ := List.cons.inj starts
    exact (List.cons.inj behindZero).1 ▸ alone e (digits ++ text) rfl

/-- A leading zero that stands alone is a digit like any other. -/
theorem lexNumeral_eq (alone : StandsAlone text) :
    lexNumeral negative text =
      if (text.takeWhile Char.isDigit).isEmpty then (breakNumeral (text.dropWhile Char.isDigit), [])
      else lexFraction negative (Decimal.readDigits 0 (text.takeWhile Char.isDigit))
        (text.dropWhile Char.isDigit) := by
  unfold lexNumeral
  split
  · rename_i d behind
    have other := alone d behind rfl
    rw [if_neg (by simp [other]), List.takeWhile_cons_of_pos (by decide), List.dropWhile_cons_of_pos (by decide),
      List.takeWhile_cons_of_neg (by simp [other]), List.dropWhile_cons_of_neg (by simp [other])]
    rfl
  · rfl

theorem takes_lexNumeral (read : lexNumeral negative text = (token, rest)) (whole : token.isBroken = false) :
    Takes (lexNumeral negative) text token rest := by
  -- a zero with a digit behind it breaks the numeral
  have alone : StandsAlone text := by
    rintro d behind rfl
    by_contra digit
    rw [lexNumeral, if_pos (by simpa using digit)] at read
    cases read
    cases whole
  obtain ⟨digits, after, rfl, all, next⟩ := exists_digits text
  obtain ⟨taken, left⟩ := span_digits all next
  rw [lexNumeral_eq alone, taken, left] at read
  split at read
  · cases read
    cases whole
  · rename_i some
    obtain ⟨isNumber, part, rfl, plain, behind, again⟩ := takes_lexFraction read whole next
    refine ⟨isNumber, digits ++ part, by rw [List.append_assoc], ?_, behind, fun tail stops => ?_⟩
    · exact List.forall_mem_append.2 ⟨scalars_of_digits all, plain⟩
    · have first := head?_append_not_digit next stops
      obtain ⟨taken, left⟩ := span_digits all first
      rw [← again tail stops, List.append_assoc, lexNumeral_eq, taken, left, if_neg some]
      exact standsAlone_append alone first

end

/-! ## Strings -/

/-- What is left of a string, to the quote that closes it, from a region inside of the string on. -/
inductive ClosesString : Region → List Char → Prop
  | quote : ClosesString .string ['"']
  | backslash {rest : List Char} (h : ClosesString .escape rest) : ClosesString .string ('\\' :: rest)
  | escaped {c : Char} {rest : List Char} (h : ClosesString .string rest) : ClosesString .escape (c :: rest)
  | char {c : Char} {rest : List Char} (noQuote : c ≠ '"') (noBackslash : c ≠ '\\')
    (h : ClosesString .string rest) : ClosesString .string (c :: rest)

/-- A character of a number in an escape neither closes the string nor escapes anything. -/
theorem not_quote_of_hexValue? {c : Char} {value : Nat} (known : hexValue? c = some value) :
    c ≠ '"' ∧ c ≠ '\\' := by
  constructor
  · rintro rfl
    cases known
  · rintro rfl
    cases known

theorem closesString_hex {a b c d : Char} {unit : Nat} {rest : List Char}
    (known : hexUnit? a b c d = some unit) (h : ClosesString .string rest) :
    ClosesString .string (a :: b :: c :: d :: rest) := by
  obtain ⟨w, ha, known⟩ := Option.bind_eq_some_iff.1 known
  obtain ⟨x, hb, known⟩ := Option.bind_eq_some_iff.1 known
  obtain ⟨y, hc, known⟩ := Option.bind_eq_some_iff.1 known
  obtain ⟨z, hd, -⟩ := Option.bind_eq_some_iff.1 known
  have char {c : Char} {value : Nat} {rest : List Char} (known : hexValue? c = some value)
      (h : ClosesString .string rest) : ClosesString .string (c :: rest) :=
    .char (not_quote_of_hexValue? known).1 (not_quote_of_hexValue? known).2 h
  exact char ha (char hb (char hc (char hd h)))

/-- A string is read to its closing quote, whatever stands behind it. -/
theorem lexString_eq {spelled : Spelled} {pending : Option Nat} {text rest : List Char} {token : Token}
    (read : lexString spelled pending text = (token, rest)) (whole : token.isBroken = false) :
    ∃ inner, text = inner ++ rest ∧ ClosesString .string inner ∧ (∃ s, token = .string s) ∧
      ∀ tail, lexString spelled pending (inner ++ tail) = (token, tail) := by
  -- by the cases of the reader, of which those that break the string are excluded
  induction spelled, pending, text using lexString.induct with
  | case1 => cases read; cases whole
  | case2 spelled pending tail =>
    rw [lexString] at read
    cases read
    exact ⟨['"'], rfl, .quote, ⟨_, rfl⟩, fun tail => by rw [List.singleton_append, lexString]⟩
  | case3 spelled pending a b c d tail unit known spelled' pending' added ih =>
    rw [lexString, known] at read
    simp only [added] at read
    obtain ⟨inner, rfl, closes, isString, again⟩ := ih read
    refine ⟨'\\' :: 'u' :: a :: b :: c :: d :: inner, rfl, .backslash (.escaped (closesString_hex known closes)),
      isString, fun tail => ?_⟩
    simp only [List.cons_append, lexString, known, added]
    exact again tail
  | case4 spelled pending a b c d tail unknown =>
    rw [lexString, unknown] at read
    cases read
    cases whole
  | case5 spelled pending tail short =>
    rw [lexString] at read
    · cases read
      cases whole
    · exact short
  | case6 spelled pending c tail _ other e known ih =>
    rw [lexString, known] at read
    · obtain ⟨inner, rfl, closes, isString, again⟩ := ih read
      refine ⟨'\\' :: c :: inner, rfl, .backslash (.escaped closes), isString, fun tail => ?_⟩
      rw [List.cons_append, List.cons_append, lexString, known]
      · exact again tail
      · exact fun _ _ _ _ _ same => absurd same other
      · exact other
    · exact fun _ _ _ _ _ same => absurd same other
    · exact other
  | case7 spelled pending c tail _ other unknown =>
    rw [lexString, unknown] at read
    · cases read
      cases whole
    · exact fun _ _ _ _ _ same => absurd same other
    · exact other
  | case8 => cases read; cases whole
  | case9 spelled pending c tail quote hex short escape alone control =>
    rw [lexString, if_pos control] at read
    · cases read
      cases whole
    all_goals assumption
  | case10 spelled pending c tail quote _ _ escape alone visible ih =>
    have noQuote : c ≠ '"' := quote
    -- a backslash starts an escape or ends the text
    have backslash : c ≠ '\\' := by
      rintro rfl
      cases tail with
      | nil => exact alone rfl rfl
      | cons d tail => exact escape d tail rfl rfl
    have plain (tail : List Char) : lexString spelled pending (c :: tail) =
        lexString (addChar spelled pending c) none tail := by
      rw [lexString, if_neg visible]
      all_goals simp [noQuote, backslash]
    rw [plain] at read
    obtain ⟨inner, rfl, closes, isString, again⟩ := ih read
    exact ⟨c :: inner, rfl, .char noQuote backslash closes, isString, fun tail => (plain _).trans (again tail)⟩

/-- Inside of strings a reader of characters copies what it reads, and it looks at quotes and backslashes
only. -/
structure CopiesStrings {α : Type} (copy : Char → α) (scan : Region → List Char → List α) : Prop where
  nil : ∀ region, scan region [] = []
  quote : ∀ rest, scan .string ('"' :: rest) = copy '"' :: scan .code rest
  backslash : ∀ rest, scan .string ('\\' :: rest) = copy '\\' :: scan .escape rest
  escaped : ∀ c rest, scan .escape (c :: rest) = copy c :: scan .string rest
  char : ∀ c rest, c ≠ '"' → c ≠ '\\' → scan .string (c :: rest) = copy c :: scan .string rest

namespace CopiesStrings

variable {α : Type} {copy : Char → α} {scan : Region → List Char → List α} (copies : CopiesStrings copy scan)
include copies

theorem append {region : Region} {inner : List Char} (closes : ClosesString region inner) (rest : List Char) :
    scan region (inner ++ rest) = inner.map copy ++ scan .code rest := by
  induction closes with
  | quote => exact copies.quote rest
  | backslash _ ih => rw [List.cons_append, copies.backslash, ih, List.map_cons, List.cons_append]
  | escaped _ ih => rw [List.cons_append, copies.escaped, ih, List.map_cons, List.cons_append]
  | char noQuote noBackslash _ ih =>
    rw [List.cons_append, copies.char _ _ noQuote noBackslash, ih, List.map_cons, List.cons_append]

theorem exists_eq_cons (distinct : Function.Injective copy) {region : Region}
    (inside : region = .string ∨ region = .escape) {c : Char} {text : List Char} {out : List α}
    (same : scan region text = copy c :: out) : ∃ rest, text = c :: rest := by
  cases text with
  | nil => rw [copies.nil] at same; cases same
  | cons d rest =>
    have first : ∃ next, scan region (d :: rest) = copy d :: next := by
      rcases inside with rfl | rfl
      · by_cases quote : d = '"'
        · exact quote ▸ ⟨_, copies.quote rest⟩
        by_cases backslash : d = '\\'
        · exact backslash ▸ ⟨_, copies.backslash rest⟩
        · exact ⟨_, copies.char d rest quote backslash⟩
      · exact ⟨_, copies.escaped d rest⟩
    obtain ⟨next, first⟩ := first
    rw [first, List.cons.injEq] at same
    exact ⟨rest, by rw [distinct same.1]⟩

/-- What a string has been copied from is the same string. -/
theorem exists_of_append (distinct : Function.Injective copy) {region : Region} {inner text : List Char}
    {out : List α} (closes : ClosesString region inner) (same : scan region text = inner.map copy ++ out) :
    ∃ rest, text = inner ++ rest ∧ scan .code rest = out := by
  induction closes generalizing text with
  | quote =>
    obtain ⟨rest, rfl⟩ := copies.exists_eq_cons distinct (.inl rfl) same
    rw [copies.quote, List.map_singleton, List.singleton_append, List.cons.injEq] at same
    exact ⟨rest, rfl, same.2⟩
  | backslash _ ih =>
    obtain ⟨rest, rfl⟩ := copies.exists_eq_cons distinct (.inl rfl) same
    rw [copies.backslash, List.map_cons, List.cons_append, List.cons.injEq] at same
    obtain ⟨rest, rfl, behind⟩ := ih same.2
    exact ⟨rest, rfl, behind⟩
  | escaped _ ih =>
    obtain ⟨rest, rfl⟩ := copies.exists_eq_cons distinct (.inr rfl) same
    rw [copies.escaped, List.map_cons, List.cons_append, List.cons.injEq] at same
    obtain ⟨rest, rfl, behind⟩ := ih same.2
    exact ⟨rest, rfl, behind⟩
  | char noQuote noBackslash _ ih =>
    obtain ⟨rest, rfl⟩ := copies.exists_eq_cons distinct (.inl rfl) same
    rw [copies.char _ _ noQuote noBackslash, List.map_cons, List.cons_append, List.cons.injEq] at same
    obtain ⟨rest, rfl, behind⟩ := ih same.2
    exact ⟨rest, rfl, behind⟩

end CopiesStrings

/-! ## Tokens -/

/-- The marks with their tokens. -/
def marks : List (Char × Token) :=
  [('[', .openArray), (']', .closeArray), ('\x7b', .openObject), ('\x7d', .closeObject), (',', .comma), (':', .colon)]

/-- The token is a mark. -/
def Token.isMark : Token → Bool
  | .openArray | .closeArray | .openObject | .closeObject | .comma | .colon => true
  | _ => false

theorem Token.not_isMark_of_isNumber {token : Token} (number : token.isNumber = true) : token.isMark = false := by
  cases token with
  | number _ => rfl
  | _ => cases number

/-- The characters of a token: a mark, a string, or a word or numeral. -/
inductive IsSpelled (c : Char) : List Char → Token → Prop
  | mark {token : Token} (listed : (c, token) ∈ marks) : IsSpelled c [] token
  | string {inner : List Char} {contents : Option String} (quote : c = '"')
    (closes : ClosesString .string inner) : IsSpelled c inner (.string contents)
  | scalar {part : List Char} {token : Token} (all : ∀ d ∈ c :: part, isScalarChar d = true)
    (other : token.isMark = false) : IsSpelled c part token

theorem lexWord_eq {word text rest : List Char} {token token' : Token}
    (read : lexWord token word text = (token', rest)) (whole : token'.isBroken = false) :
    token' = token ∧ text = word ++ rest := by
  induction word generalizing text with
  | nil =>
    cases read
    exact ⟨rfl, rfl⟩
  | cons w word ih =>
    cases text with
    | nil =>
      cases read
      cases whole
    | cons c text =>
      rw [lexWord] at read
      split at read
      · rename_i same
        obtain ⟨rfl, rfl⟩ := ih read
        exact ⟨rfl, by rw [same]; rfl⟩
      · cases read
        cases whole

theorem lexWord_append (token : Token) (word tail : List Char) :
    lexWord token word (word ++ tail) = (token, tail) := by
  induction word with
  | nil => rfl
  | cons w word ih => rw [List.cons_append, lexWord, if_pos rfl, ih]

/-- Reading a token takes its spelling off. What stands behind a token that is no numeral does not matter; a
numeral is taken off up to where it does not go on. -/
def Cuts (c : Char) (text : List Char) (token : Token) (rest : List Char) : Prop :=
  ∃ part, text = part ++ rest ∧ IsSpelled c part token ∧
    (token.isNumber = true → ∀ d ∈ rest.head?, d.isDigit = false) ∧
    ∀ tail, (token.isNumber = true → Stops tail) → lexToken c (part ++ tail) = (token, tail)

section

variable {c : Char} {text rest : List Char} {token : Token}

theorem cuts_mark {known : Token} (listed : (c, known) ∈ marks) (all : ∀ tail, lexToken c tail = (known, tail))
    (other : known.isNumber = false) (read : lexToken c text = (token, rest)) : Cuts c text token rest := by
  rw [all] at read
  cases read
  exact ⟨[], rfl, .mark listed, fun isNumber => absurd isNumber (by simp [other]), fun tail _ => all tail⟩

theorem cuts_word {known : Token} {word : List Char} (all : ∀ tail, lexToken c tail = lexWord known word tail)
    (plain : ∀ d ∈ c :: word, isScalarChar d = true) (noMark : known.isMark = false)
    (other : known.isNumber = false) (read : lexToken c text = (token, rest)) (whole : token.isBroken = false) :
    Cuts c text token rest := by
  rw [all] at read
  obtain ⟨rfl, rfl⟩ := lexWord_eq read whole
  refine ⟨word, rfl, .scalar plain noMark, fun isNumber => absurd isNumber (by simp [other]), fun tail _ => ?_⟩
  rw [all, lexWord_append]

theorem lexToken_digit (digit : c.isDigit = true) (text : List Char) :
    lexToken c text = lexNumeral false (c :: text) := by
  unfold lexToken
  split
  case h_12 => rw [if_pos digit]
  all_goals cases digit

theorem cuts_digit (digit : c.isDigit = true) (read : lexNumeral false (c :: text) = (token, rest))
    (whole : token.isBroken = false) : Cuts c text token rest := by
  obtain ⟨isNumber, part, split, plain, behind, again⟩ := takes_lexNumeral read whole
  cases part with
  | nil =>
    -- the numeral has the first digit at least
    have other := behind c (by rw [← List.nil_append rest, ← split]; rfl)
    rw [digit] at other
    cases other
  | cons d part =>
    obtain ⟨rfl, rfl⟩ := List.cons.inj split
    refine ⟨part, rfl, .scalar plain (Token.not_isMark_of_isNumber isNumber), fun _ => behind, fun tail stops => ?_⟩
    rw [lexToken_digit digit]
    exact again tail (stops isNumber)

theorem lexToken_eq (read : lexToken c text = (token, rest)) (whole : token.isBroken = false) :
    Cuts c text token rest := by
  unfold lexToken at read
  split at read
  -- the marks
  · exact cuts_mark (by decide) (fun _ => rfl) rfl read
  · exact cuts_mark (by decide) (fun _ => rfl) rfl read
  · exact cuts_mark (by decide) (fun _ => rfl) rfl read
  · exact cuts_mark (by decide) (fun _ => rfl) rfl read
  · exact cuts_mark (by decide) (fun _ => rfl) rfl read
  · exact cuts_mark (by decide) (fun _ => rfl) rfl read
  -- a string
  · obtain ⟨inner, rfl, closes, ⟨contents, rfl⟩, again⟩ := lexString_eq read whole
    exact ⟨inner, rfl, .string rfl closes, nofun, fun tail _ => again tail⟩
  -- the words
  · exact cuts_word (fun _ => rfl) (List.all_eq_true.1 rfl) rfl rfl read whole
  · exact cuts_word (fun _ => rfl) (List.all_eq_true.1 rfl) rfl rfl read whole
  · exact cuts_word (fun _ => rfl) (List.all_eq_true.1 rfl) rfl rfl read whole
  -- a numeral, with a sign or without one
  · obtain ⟨isNumber, part, rfl, plain, behind, again⟩ := takes_lexNumeral read whole
    have noMark := Token.not_isMark_of_isNumber isNumber
    exact ⟨part, rfl, .scalar (List.forall_mem_cons.2 ⟨by decide, plain⟩) noMark, fun _ => behind,
      fun tail stops => again tail (stops isNumber)⟩
  · split at read
    · rename_i digit
      exact cuts_digit digit read whole
    · cases read
      cases whole

end

end Json

end ShapeCheck
