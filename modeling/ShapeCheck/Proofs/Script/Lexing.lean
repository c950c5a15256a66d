import Mathlib.Data.List.TakeWhile
import ShapeCheck.Proofs.Number.Literals
import ShapeCheck.Proofs.Script.Trees

set_option autoImplicit false

/-! # The lexemes of written tokens

What the texts of tokens are read as, and what has to follow them for that: a word must not go on, a numeral
is followed by a blank or a bracket, and a negation is not followed by an equals sign.

Main facts: `lexes_word`, `lexes_binary`, `lexes_string` and `lexes_number`.
-/

namespace ShapeCheck

namespace Script

/-! ## Lexemes of tokens -/

/-- The lexemes of the text of a number. -/
def numberLexemes (x : Double) : List Lexeme :=
  if x.isNaN then [.word "NaN"]
  else
    let unsigned : Lexeme :=
      if x.isInfinite then .word "Infinity" else .number (Double.ofMagnitude false x.magnitude)
    if x.negative && !x.isZero then [.sign "-", unsigned] else [unsigned]

/-- The lexemes of an operator. -/
def operatorLexeme : BinaryOperator → Lexeme
  | .hasKey => .word "in"
  | operator => .sign operator.sign

/-- The lexemes of a word. Two functions of the host are members of objects. -/
def wordLexemes (text : String) : List Lexeme :=
  if text = "Array.isArray" then [.word "Array", .sign ".", .word "isArray"]
  else if text = "ArrayBuffer.isView" then [.word "ArrayBuffer", .sign ".", .word "isView"]
  else [.word text]

/-- The lexemes of the text of a token. -/
def Token.lexemes (identifier : String → String) : Token → List Lexeme
  | word text => wordLexemes text
  | callee predicate => [.word (identifier predicate)]
  | number x => numberLexemes x
  | string text => [.string text]
  | unary .not => [.sign "!"]
  | unary .typeOf => [.word "typeof"]
  | binary operator => [operatorLexeme operator]
  | dot => [.sign "."]
  | openParen => [.sign "("]
  | closeParen => [.sign ")"]
  | openBracket => [.sign "["]
  | closeBracket => [.sign "]"]
  | code _ => []

/-! ## Reading a prefix -/

section
variable {letters : Letters}

theorem lex_of_isSpace {c : Char} (space : isSpace c = true) (cs : List Char) :
    lex letters (c :: cs) = lex letters cs := by
  rw [lex, if_pos space]

theorem lex_of_lexeme? {c : Char} {cs rest : List Char} {lexeme : Lexeme} (visible : isSpace c = false)
    (found : lexeme? letters c cs = some (lexeme, rest)) :
    lex letters (c :: cs) = (lex letters rest).map (lexeme :: ·) := by
  rw [lex, if_neg (by simp [visible])]
  split
  · rename_i none
    rw [found] at none
    cases none
  · rename_i other after same
    obtain ⟨rfl, rfl⟩ := Prod.mk.inj (Option.some.inj (found.symm.trans same))
    rfl

/-- In front of what may follow, the characters are read as these lexemes. -/
def Lexes (letters : Letters) (next : List Char → Prop) (cs : List Char) (ls : List Lexeme) : Prop :=
  ∀ s, next s → lex letters (cs ++ s) = (lex letters s).map (ls ++ ·)

/-- Anything may follow. -/
def Anything (_ : List Char) : Prop := True

/-- What follows a word does not continue it. -/
def Apart (letters : Letters) (s : List Char) : Prop := ∀ c ∈ s.head?, letters.isTail c = false

/-- A blank or a bracket follows, if anything does. -/
def AtMark (s : List Char) : Prop := ∀ c ∈ s.head?, c ∈ [' ', '(', ')', '[', ']']

/-- A blank, a bracket or a point follows, if anything does. -/
def AtMarkOrPoint (s : List Char) : Prop := ∀ c ∈ s.head?, c ∈ ['.', ' ', '(', ')', '[', ']']

theorem AtMark.orPoint {s : List Char} (h : AtMark s) : AtMarkOrPoint s :=
  fun c first => List.mem_cons_of_mem _ (h c first)

theorem AtMarkOrPoint.apart {s : List Char} (h : AtMarkOrPoint s) : Apart letters s := by
  intro c first
  have marks : ∀ c ∈ ['.', ' ', '(', ')', '[', ']'], Text.isIdentifierTail c = false ∧
      isForeign c = false := by decide
  obtain ⟨plain, ascii⟩ := marks c (h c first)
  simp [Letters.isTail, plain, ascii]

namespace Lexes

variable {next next' : List Char → Prop} {cs cs' : List Char} {ls ls' : List Lexeme}

theorem mono (h : Lexes letters next cs ls) (fits : ∀ s, next' s → next s) : Lexes letters next' cs ls :=
  fun s after => h s (fits s after)

theorem append (h : Lexes letters next cs ls) (h' : Lexes letters next' cs' ls')
    (fits : ∀ s, next' s → next (cs' ++ s)) : Lexes letters next' (cs ++ cs') (ls ++ ls') := by
  intro s after
  rw [List.append_assoc, h _ (fits s after), h' s after, Option.map_map]
  congr 1
  funext rest
  exact (List.append_assoc ls ls' rest).symm

/-- A blank in front changes nothing. -/
theorem space {c : Char} (isSpace : Script.isSpace c = true) (h : Lexes letters next cs ls) :
    Lexes letters next (c :: cs) ls := by
  intro s after
  rw [List.cons_append, lex_of_isSpace isSpace, h s after]

theorem of_lexeme? {c : Char} {lexeme : Lexeme} (visible : isSpace c = false)
    (found : ∀ s, next s → lexeme? letters c (cs ++ s) = some (lexeme, s)) :
    Lexes letters next (c :: cs) [lexeme] := by
  intro s after
  rw [List.cons_append, lex_of_lexeme? visible (found s after)]
  rfl

end Lexes

/-! ## Words -/

/-- The characters of identifiers lie between the dollar sign and the small letters. -/
theorem toNat_of_isIdentifierTail {c : Char} (tail : Text.isIdentifierTail c = true) :
    0x24 ≤ c.toNat ∧ c.toNat ≤ 0x7a := by
  unfold Text.isIdentifierTail Char.isAlphanum Char.isAlpha Char.isUpper Char.isLower Char.isDigit at tail
  simp only [Bool.or_eq_true, Bool.and_eq_true, decide_eq_true_eq, beq_iff_eq, ge_iff_le,
    UInt32.le_iff_toNat_le] at tail
  have number : c.val.toNat = c.toNat := rfl
  rcases tail with (((⟨low, high⟩ | ⟨low, high⟩) | ⟨low, high⟩) | rfl) | rfl
  · simp at low high
    omega
  · simp at low high
    omega
  · simp at low high
    omega
  · decide
  · decide

theorem isIdentifierTail_of_head {c : Char} (head : Text.isIdentifierHead c = true) :
    Text.isIdentifierTail c = true := by
  simp only [Text.isIdentifierHead, Text.isIdentifierTail, Char.isAlphanum, Bool.or_eq_true] at head ⊢
  tauto

theorem isSpace_of_isIdentifierTail {c : Char} (tail : Text.isIdentifierTail c = true) :
    isSpace c = false := by
  have range := toNat_of_isIdentifierTail tail
  have ends : endsLine c = false := by
    have ne {d : Char} (far : d.toNat < 0x24) : c ≠ d := by
      rintro rfl
      omega
    simp [endsLine, ne (d := '\n') (by decide), ne (d := '\r') (by decide)]
    omega
  simp [isSpace, ends]
  omega

theorem isSpace_of_isHead {c : Char} (head : letters.isHead c = true) : isSpace c = false := by
  rcases Bool.or_eq_true_iff.1 head with plain | foreign
  · exact isSpace_of_isIdentifierTail (isIdentifierTail_of_head plain)
  · simp only [isForeign, Bool.and_eq_true, Bool.not_eq_true'] at foreign
    exact foreign.1.2

theorem isIdentifierTail_of_isDigit {c : Char} (digit : c.isDigit = true) :
    Text.isIdentifierTail c = true := by
  simp [Text.isIdentifierTail, Char.isAlphanum, digit]

/-- Numerals and words start with other characters. -/
theorem isHead_of_isDigit {c : Char} (digit : c.isDigit = true) : letters.isHead c = false := by
  have range : 48 ≤ c.toNat ∧ c.toNat ≤ 57 := by
    simpa [Char.isDigit, UInt32.le_iff_toNat_le] using digit
  have foreign : isForeign c = false := by
    simp [isForeign]
    omega
  have upper : c.isUpper = false := by
    unfold Char.isUpper
    rw [Bool.eq_false_iff]
    simp [UInt32.le_iff_toNat_le]
    have number : c.val.toNat = c.toNat := rfl
    omega
  have lower : c.isLower = false := by
    unfold Char.isLower
    rw [Bool.eq_false_iff]
    simp [UInt32.le_iff_toNat_le]
    have number : c.val.toNat = c.toNat := rfl
    omega
  have marks : c ≠ '_' ∧ c ≠ '$' := by
    constructor <;>
    · rintro rfl
      revert digit
      decide
  unfold Letters.isHead Text.isIdentifierHead Char.isAlpha
  simp [foreign, upper, lower, marks]

theorem takeWhile_append_of_head {test : Char → Bool} {cs s : List Char} (all : ∀ c ∈ cs, test c = true)
    (next : ∀ c ∈ s.head?, test c = false) :
    (cs ++ s).takeWhile test = cs ∧ (cs ++ s).dropWhile test = s := by
  rw [List.takeWhile_append_of_pos all, List.dropWhile_append_of_pos all]
  cases s with
  | nil => simp
  | cons c rest =>
    have other := next c rfl
    simp [other]

theorem lexes_word {text : String} (word : letters.isWord text.toList = true) :
    Lexes letters (Apart letters) text.toList [.word text] := by
  obtain ⟨c, rest, spelled⟩ : ∃ c rest, text.toList = c :: rest := by
    cases chars : text.toList with
    | nil => simp [chars, Letters.isWord] at word
    | cons c rest => exact ⟨c, rest, rfl⟩
  rw [spelled, Letters.isWord, Bool.and_eq_true, List.all_eq_true] at word
  have text_eq : text = String.ofList (c :: rest) := by rw [← spelled, String.ofList_toList]
  rw [spelled]
  refine .of_lexeme? (isSpace_of_isHead word.1) fun s after => ?_
  obtain ⟨taken, left⟩ := takeWhile_append_of_head word.2 after
  rw [lexeme?, if_pos word.1, taken, left, ← text_eq]

/-! ## Signs -/

/-- A negation is not part of a longer sign. -/
theorem lexes_not : Lexes letters (fun s => ∀ c ∈ s.head?, c ≠ '=') ['!'] [.sign "!"] := by
  refine .of_lexeme? (by decide) fun s after => ?_
  cases s with
  | nil => rfl
  | cons c rest =>
    have other : ('=' == c) = false := by simpa using (after c rfl).symm
    show sign? ('!' :: c :: rest) = _
    simp [sign?, signs, List.isPrefixOf, List.find?, other]
    rfl

/-- A minus sign in front of a letter or a digit is not part of a longer sign. -/
theorem lexes_minus : Lexes letters (fun s => ∀ c ∈ s.head?, c.isAlphanum = true) ['-'] [.sign "-"] := by
  refine .of_lexeme? (by decide) fun s after => ?_
  cases s with
  | nil => rfl
  | cons c rest =>
    have ne {d : Char} (mark : d.isAlphanum = false) : (d == c) = false := by
      have := after c rfl
      rw [beq_eq_false_iff_ne]
      rintro rfl
      simp_all
    have equals := ne (d := '=') (by decide)
    have minus := ne (d := '-') (by decide)
    show sign? ('-' :: c :: rest) = _
    simp [sign?, signs, List.isPrefixOf, List.find?, equals, minus]
    rfl

/-- A point in front of a word is not part of a longer sign, or of a numeral. -/
theorem lexes_dot : Lexes letters (fun s => ∀ c ∈ s.head?, letters.isHead c = true) ['.'] [.sign "."] := by
  refine .of_lexeme? (by decide) fun s after => ?_
  cases s with
  | nil => rfl
  | cons c rest =>
    have head := after c rfl
    have digit : c.isDigit = false := by
      rw [Bool.eq_false_iff]
      intro digit
      rw [isHead_of_isDigit digit] at head
      cases head
    have other : ('.' == c) = false := by
      rw [beq_eq_false_iff_ne]
      rintro rfl
      have point : letters.isHead '.' = false := rfl
      rw [point] at head
      cases head
    show (if (c.isDigit : Bool) then none else sign? ('.' :: c :: rest)) = _
    rw [digit]
    simp [sign?, signs, List.isPrefixOf, List.find?, other]
    rfl

theorem lexes_bracket {c : Char} {sign : String} (listed : (c, sign) ∈
    [('(', "("), (')', ")"), ('[', "["), (']', "]")]) : Lexes letters Anything [c] [.sign sign] := by
  simp only [List.mem_cons, List.not_mem_nil, or_false, Prod.mk.injEq] at listed
  rcases listed with ⟨rfl, rfl⟩ | ⟨rfl, rfl⟩ | ⟨rfl, rfl⟩ | ⟨rfl, rfl⟩ <;>
    exact .of_lexeme? (by decide) fun s _ => rfl

/-- A lexeme between blanks. -/
theorem lexes_spaced {c : Char} (cs : List Char) {lexeme : Lexeme} (visible : isSpace c = false)
    (found : ∀ s, lexeme? letters c (cs ++ ' ' :: s) = some (lexeme, ' ' :: s)) :
    Lexes letters Anything (c :: (cs ++ [' '])) [lexeme] := by
  intro s _
  have blank : lex letters (' ' :: s) = lex letters s := lex_of_isSpace (by decide) s
  rw [List.cons_append, List.append_assoc, List.singleton_append, lex_of_lexeme? visible (found s), blank]
  rfl

theorem lexes_binary (operator : BinaryOperator) :
    Lexes letters Anything (" " ++ operator.sign ++ " ").toList [operatorLexeme operator] := by
  have blank : isSpace ' ' = true := by decide
  cases operator with
  | or => exact .space blank (lexes_spaced ['|'] (by decide) fun s => rfl)
  | and => exact .space blank (lexes_spaced ['&'] (by decide) fun s => rfl)
  | strictEq => exact .space blank (lexes_spaced ['=', '='] (by decide) fun s => rfl)
  | strictNe => exact .space blank (lexes_spaced ['=', '='] (by decide) fun s => rfl)
  | compare order =>
    cases order with
    | lt => exact .space blank (lexes_spaced [] (by decide) fun s => rfl)
    | le => exact .space blank (lexes_spaced ['='] (by decide) fun s => rfl)
    | gt => exact .space blank (lexes_spaced [] (by decide) fun s => rfl)
    | ge => exact .space blank (lexes_spaced ['='] (by decide) fun s => rfl)
  | hasKey => exact .space blank (lexes_spaced ['n'] (by decide) fun s => rfl)

theorem lexes_typeOf : Lexes letters Anything "typeof ".toList [.word "typeof"] :=
  lexes_spaced ['y', 'p', 'e', 'o', 'f'] (by decide) fun s => rfl

/-! ## String literals -/

/-- The characters that are spelled by number in a string literal, and their numbers. -/
def numberedChars : List Nat := List.range 0xa0 ++ [0x2028, 0x2029]

theorem mem_numberedChars {c : Char}
    (numbered : c.toNat = 0x2028 ∨ c.toNat = 0x2029 ∨ Text.isControl c = true) :
    c.toNat ∈ numberedChars := by
  simp only [Text.isControl, Bool.or_eq_true, Bool.and_eq_true, decide_eq_true_eq] at numbered
  simp only [numberedChars, List.mem_append, List.mem_range, List.mem_cons, List.not_mem_nil, or_false]
  omega

theorem hexChar?_hex : ∀ n ∈ numberedChars, ((Text.hex 4 n).map Char.toUpper).length = 4 ∧
    hexChar? ((Text.hex 4 n).map Char.toUpper) = some (Char.ofNat n) := by
  decide +kernel

theorem string?_spell (c : Char) (cs : List Char) :
    string? (Text.spellScript c ++ cs) = (string? cs).map (Prod.map (c :: ·) id) := by
  have escape (d : Char) (other : d ≠ 'u') (found : escaped? d = some c) :
      string? ('\\' :: d :: cs) = (string? cs).map (Prod.map (c :: ·) id) := by
    rw [string?, found]
    · rfl
    · simp [other]
  unfold Text.spellScript
  split
  · rename_i same
    exact escape '"' (by decide) (by rw [same]; rfl)
  split
  · rename_i same
    exact escape '\\' (by decide) (by rw [same]; rfl)
  split
  · rename_i same
    exact escape 'n' (by decide) (by rw [same]; rfl)
  split
  · rename_i same
    exact escape 'r' (by decide) (by rw [same]; rfl)
  split
  · rename_i same
    exact escape 't' (by decide) (by rw [same]; rfl)
  split
  · -- a control or a line separator is spelled by number
    rename_i numbered
    obtain ⟨four, char⟩ := hexChar?_hex _ (mem_numberedChars numbered)
    rw [Char.ofNat_toNat] at char
    generalize (Text.hex 4 c.toNat).map Char.toUpper = digits at four char
    match digits, four with
    | [p, q, r, s], _ =>
      show string? ('\\' :: 'u' :: p :: q :: r :: s :: cs) = _
      rw [string?, char]
      rfl
  · rename_i notQuote notBackslash notLine notReturn notTab shown
    have visible : endsLine c = false := by
      simp only [not_or] at shown
      simp [endsLine, notLine, notReturn, shown.1, shown.2.1]
    show string? (c :: cs) = _
    rw [string?, if_neg (by simp [visible])]
    · exact notQuote
    · exact fun _ _ _ _ _ backslash => absurd backslash notBackslash
    · exact fun _ _ backslash => absurd backslash notBackslash

theorem string?_quoted (text : List Char) (s : List Char) :
    string? (text.flatMap Text.spellScript ++ '"' :: s) = some (text, s) := by
  induction text with
  | nil => rfl
  | cons c rest ih =>
    rw [List.flatMap_cons, List.append_assoc, string?_spell, ih]
    rfl

theorem quoteScript_toList (text : String) : (Text.quoteScript text).toList =
    '"' :: (text.toList.flatMap Text.spellScript ++ ['"']) := by
  simp [Text.quoteScript, Text.quoteWith]

theorem lexes_string (text : String) :
    Lexes letters Anything (Text.quoteScript text).toList [.string text] := by
  rw [quoteScript_toList]
  refine .of_lexeme? (by decide) fun s _ => ?_
  show (string? (text.toList.flatMap Text.spellScript ++ ['"'] ++ s)).map _ = _
  rw [List.append_assoc, List.singleton_append, string?_quoted]
  simp

/-! ## Numerals -/

/-- What follows a numeral belongs to no numeral. -/
theorem AtMark.not_digit {s : List Char} (h : AtMark s) : ∀ c ∈ s.head?, c.isDigit = false := by
  have marks : ∀ c ∈ [' ', '(', ')', '[', ']'], c.isDigit = false := by decide
  exact fun c first => marks c (h c first)

theorem AtMark.fractionOf {s : List Char} (h : AtMark s) : fractionOf s = ([], s) := by
  unfold Script.fractionOf
  split
  · exact absurd (h '.' rfl) (by decide)
  · rfl

theorem number?_literal {body whole fraction : List Char} (literal : IsLiteral body whole fraction)
    {s : List Char} (after : AtMark s) : number? letters (body ++ s) =
      some (Decimal.toDouble ⟨false, Nat.ofDigitChars 10 (whole ++ fraction) 0, -fraction.length⟩, s) := by
  have split : (body ++ s).takeWhile Char.isDigit = whole ∧
      fractionOf ((body ++ s).dropWhile Char.isDigit) = (fraction, s) := by
    rcases literal.body with ⟨rfl, rfl⟩ | rfl
    · obtain ⟨taken, left⟩ := takeWhile_append_of_head literal.isWhole after.not_digit
      exact ⟨taken, by rw [left, after.fractionOf]⟩
    · obtain ⟨front, behind⟩ := takeWhile_append_of_head (s := '.' :: fraction ++ s) literal.isWhole
        (fun c first => by
          obtain rfl : '.' = c := Option.some.inj first
          rfl)
      obtain ⟨taken, left⟩ := takeWhile_append_of_head literal.isFraction after.not_digit
      rw [List.append_assoc]
      refine ⟨front, ?_⟩
      rw [behind]
      show ((fraction ++ s).takeWhile Char.isDigit, (fraction ++ s).dropWhile Char.isDigit) = _
      rw [taken, left]
  obtain ⟨c, rest, first, single⟩ := literal.first
  have fits : ¬(whole.head? = some '0' ∧ whole.length ≠ 1 ∨ s.head?.any letters.isTail = true) := by
    rintro (⟨zero, long⟩ | joined)
    · rw [first] at zero long
      simp [single (Option.some.inj zero)] at long
    · obtain ⟨some, tail⟩ := (Option.any_eq_true_iff_get _ _).1 joined
      rw [after.orPoint.apart _ (Option.get_mem some)] at tail
      cases tail
  unfold number?
  rw [split.1, split.2]
  exact if_neg fits

theorem lexes_literal {body whole fraction : List Char} (literal : IsLiteral body whole fraction)
    {x : Double} (value : Decimal.toDouble ⟨false, Nat.ofDigitChars 10 (whole ++ fraction) 0,
      -fraction.length⟩ = x) : Lexes letters AtMark body [.number x] := by
  obtain ⟨c, rest, spelled, digit⟩ := literal.starts
  rw [spelled]
  refine .of_lexeme? (isSpace_of_isIdentifierTail (isIdentifierTail_of_isDigit digit)) fun s after => ?_
  rw [lexeme?, if_neg (by simp [isHead_of_isDigit digit]), if_pos digit, ← List.cons_append, ← spelled,
    number?_literal literal after, value]
  rfl

theorem lexes_number (x : Double) : Lexes letters AtMark x.text.toList (numberLexemes x) := by
  have word (text : String) (word : letters.isWord text.toList = true) :
      Lexes letters AtMark text.toList [.word text] :=
    (lexes_word word).mono fun _ after => after.orPoint.apart
  have signed {text : String} {body : List Char} {unsigned : Lexeme}
      (written : text = Decimal.sign x.negative ++ String.ofList body)
      (first : ∃ c rest, body = c :: rest ∧ c.isAlphanum = true)
      (lexed : Lexes letters AtMark body [unsigned]) : Lexes letters AtMark text.toList
        (if x.negative then [.sign "-", unsigned] else [unsigned]) := by
    rw [written]
    cases x.negative with
    | false => simpa [Decimal.sign] using lexed
    | true =>
      have minus : Lexes letters (fun s => ∀ c ∈ s.head?, c.isAlphanum = true) ['-'] [.sign "-"] :=
        lexes_minus
      have both := minus.append lexed fun s _ => by
        obtain ⟨c, rest, rfl, letter⟩ := first
        exact fun d same => Option.some.inj same ▸ letter
      simpa [Decimal.sign] using both
  unfold numberLexemes
  split
  · rename_i nan
    rw [show x.text = "NaN" by rw [Double.text, if_pos nan]]
    exact word "NaN" rfl
  rename_i notNaN
  by_cases infinite : x.isInfinite = true
  · have notZero : x.isZero = false := by
      rw [Double.isInfinite, beq_iff_eq] at infinite
      rw [Double.isZero, infinite]
      rfl
    rw [if_pos infinite, notZero, Bool.not_false, Bool.and_true]
    have written : x.text = Decimal.sign x.negative ++ String.ofList "Infinity".toList := by
      rw [Double.text, if_neg notNaN, if_pos infinite]
      cases x.negative <;> rfl
    exact signed written ⟨'I', _, rfl, rfl⟩ (word "Infinity" rfl)
  by_cases zero : x.isZero = true
  · rw [if_neg infinite, zero, Bool.not_true, Bool.and_false, Double.text, if_neg notNaN, if_neg infinite,
      if_pos zero, beq_iff_eq.1 zero]
    have literal : IsLiteral ['0'] ['0'] [] :=
      ⟨by decide, by simp, ⟨'0', [], rfl, fun _ => rfl⟩, .inl ⟨rfl, rfl⟩⟩
    exact lexes_literal literal rfl
  · have positive : x.magnitude ≠ 0 := fun none => zero (beq_iff_eq.2 none)
    have finite : x.magnitude < Double.infiniteMagnitude := by
      rw [Double.isNaN, decide_eq_true_iff] at notNaN
      rw [Double.isInfinite, beq_iff_eq] at infinite
      omega
    rw [if_neg infinite, Bool.eq_false_of_not_eq_true zero, Bool.not_false, Bool.and_true]
    obtain ⟨body, whole, fraction, written, literal, rounds⟩ :=
      Double.text_literal (decide_eq_true finite) positive
    refine signed written ?_ (lexes_literal literal (literal.toDouble_eq rounds finite))
    obtain ⟨c, rest, spelled, digit⟩ := literal.starts
    exact ⟨c, rest, spelled, by simp [Char.isAlphanum, digit]⟩

end

end Script

end ShapeCheck
