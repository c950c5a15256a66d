import ShapeCheck.Proofs.Script.Lexing

set_option autoImplicit false

/-! # Tokens side by side

Words and numerals end where they should, because the tokens of an expression stand in a good order: what
stands behind an operand is an operator, a bracket or a point, a point does not stand behind a numeral, and
a negation stands in front of an operand.

Main fact: `lex_tokens` (the text of an expression is read as the lexemes of its tokens).
-/

namespace ShapeCheck

namespace Script

/-! ## Order of tokens -/

namespace Token

/-- The token may start an operand. -/
def opens : Token → Bool
  | word _ | callee _ | number _ | string _ | unary _ | openParen => true
  | _ => false

/-- The token may end an operand. -/
def ends : Token → Bool
  | word _ | callee _ | number _ | string _ | closeParen | closeBracket => true
  | _ => false

/-- The token may stand behind an operand. -/
def goesOn : Token → Bool
  | binary _ | dot | openParen | closeParen | openBracket | closeBracket => true
  | _ => false

/-- The token is a number. -/
def isNumber : Token → Bool
  | number _ => true
  | _ => false

/-- The second token may stand right behind the first one. -/
def FollowedBy : Token → Token → Prop
  | word _, next | callee _, next => next.goesOn = true
  | number _, next => next.goesOn = true ∧ next ≠ dot
  | unary .not, next => next.opens = true
  | dot, next => ∃ text, next = word text
  | _, _ => True

variable (letters : Letters) (identifier : String → String)

/-- The token stands for one lexeme, or for a function of the host. -/
def IsReadable : Token → Prop
  | word text => letters.isWord text.toList = true ∨ text ∈ ["Array.isArray", "ArrayBuffer.isView"]
  | callee predicate => letters.isWord (identifier predicate).toList = true
  | code _ => False
  | _ => True

/-- What has to follow the text of a token. -/
def Before : Token → List Char → Prop
  | word _, s | callee _, s => Apart letters s
  | number _, s => AtMark s
  | unary .not, s => ∀ c ∈ s.head?, c ≠ '='
  | dot, s => ∀ c ∈ s.head?, letters.isHead c = true
  | _, s => Anything s

variable {letters identifier}

theorem head_of_isWord {text : String} (word : letters.isWord text.toList = true) (s : List Char) :
    ∀ c ∈ (text.toList ++ s).head?, letters.isHead c = true := by
  intro c first
  cases chars : text.toList with
  | nil => simp [chars, Letters.isWord] at word
  | cons d rest =>
    rw [chars, Letters.isWord, Bool.and_eq_true] at word
    rw [chars] at first
    exact Option.some.inj first ▸ word.1

/-- At the end nothing is missing. -/
theorem before_nil (t : Token) : t.Before letters [] := by
  have none (P : Char → Prop) : ∀ c ∈ ([] : List Char).head?, P c := nofun
  cases t with
  | unary operator =>
    cases operator with
    | not => exact none _
    | typeOf => trivial
  | word _ | callee _ | number _ | dot => exact none _
  | _ => trivial

/-- The point in the name of a function of the host is a sign. -/
theorem lexes_hostMember {whole member : String} (wholeWord : letters.isWord whole.toList = true)
    (memberWord : letters.isWord member.toList = true) : Lexes letters (Apart letters)
      (whole.toList ++ ('.' :: member.toList)) [.word whole, .sign ".", .word member] := by
  refine (lexes_word wholeWord).append (lexes_dot.append (lexes_word memberWord) fun s _ => ?_)
    fun s _ => ?_
  · exact head_of_isWord memberWord s
  · exact fun c first => Option.some.inj first ▸ rfl

theorem lexes_hostWord {text : String} (host : text ∈ ["Array.isArray", "ArrayBuffer.isView"]) :
    Lexes letters (Apart letters) text.toList (wordLexemes text) := by
  simp only [List.mem_cons, List.not_mem_nil, or_false] at host
  rcases host with rfl | rfl
  · exact @lexes_hostMember letters "Array" "isArray" rfl rfl
  · exact @lexes_hostMember letters "ArrayBuffer" "isView" rfl rfl

/-- A word is one lexeme. -/
theorem wordLexemes_of_isWord {text : String} (word : letters.isWord text.toList = true) :
    wordLexemes text = [.word text] := by
  have other {host : String} (point : letters.isWord host.toList = false) : text ≠ host := by
    rintro rfl
    rw [word] at point
    cases point
  rw [wordLexemes, if_neg (other rfl), if_neg (other rfl)]

theorem lexes {t : Token} (readable : t.IsReadable letters identifier) :
    Lexes letters (t.Before letters) (t.text identifier).toList (t.lexemes identifier) := by
  cases t with
  | word text =>
    rcases readable with word | host
    · show Lexes letters (Apart letters) text.toList (wordLexemes text)
      rw [wordLexemes_of_isWord word]
      exact lexes_word word
    · exact lexes_hostWord host
  | callee predicate => exact lexes_word readable
  | number x => exact lexes_number x
  | string text => exact lexes_string text
  | unary operator =>
    cases operator with
    | not =>
      show Lexes letters _ "!".toList _
      exact lexes_not
    | typeOf => exact lexes_typeOf
  | binary operator => exact lexes_binary operator
  | dot =>
    show Lexes letters _ ".".toList _
    exact lexes_dot
  | openParen =>
    show Lexes letters _ "(".toList _
    exact lexes_bracket (by decide)
  | closeParen =>
    show Lexes letters _ ")".toList _
    exact lexes_bracket (by decide)
  | openBracket =>
    show Lexes letters _ "[".toList _
    exact lexes_bracket (by decide)
  | closeBracket =>
    show Lexes letters _ "]".toList _
    exact lexes_bracket (by decide)
  | code text => exact readable.elim

theorem head_of_word {text : String} (readable : (word text).IsReadable letters identifier)
    (s : List Char) : ∀ c ∈ (text.toList ++ s).head?, letters.isHead c = true := by
  rcases readable with word | host
  · exact head_of_isWord word s
  · have first {rest : List Char} (spelled : text.toList = 'A' :: rest) :
        ∀ c ∈ (text.toList ++ s).head?, letters.isHead c = true := by
      rw [spelled]
      exact fun c same => Option.some.inj same ▸ rfl
    simp only [List.mem_cons, List.not_mem_nil, or_false] at host
    rcases host with rfl | rfl <;> exact first rfl

/-- What stands behind an operand starts with a blank, a bracket or a point. -/
theorem text_of_goesOn (identifier : String → String) {t : Token} (goesOn : t.goesOn = true) :
    ∃ c rest, (t.text identifier).toList = c :: rest ∧ c ∈ ['.', ' ', '(', ')', '[', ']'] ∧
      (t ≠ dot → c ∈ [' ', '(', ')', '[', ']']) := by
  cases t with
  | binary operator =>
    exact ⟨' ', operator.sign.toList ++ [' '], by simp [text], by decide, fun _ => by decide⟩
  | dot => exact ⟨'.', [], by simp [text], by decide, fun other => absurd rfl other⟩
  | openParen => exact ⟨'(', [], by simp [text], by decide, fun _ => by decide⟩
  | closeParen => exact ⟨')', [], by simp [text], by decide, fun _ => by decide⟩
  | openBracket => exact ⟨'[', [], by simp [text], by decide, fun _ => by decide⟩
  | closeBracket => exact ⟨']', [], by simp [text], by decide, fun _ => by decide⟩
  | _ => cases goesOn

theorem ne_equals_of_isHead {c : Char} (head : letters.isHead c = true) : c ≠ '=' := by
  rintro rfl
  have sign : letters.isHead '=' = false := rfl
  rw [sign] at head
  cases head

/-- No text of a number starts with an equals sign. -/
theorem text_number (x : Double) : ∃ c rest, x.text.toList = c :: rest ∧ c ≠ '=' := by
  obtain ⟨negative, body, spelling, written⟩ := x.text_spelling
  have spelled : x.text.toList = (Decimal.sign negative).toList ++ body := by simp [written]
  cases negative with
  | true => exact ⟨'-', body, by rw [spelled]; rfl, by decide⟩
  | false =>
    replace spelled : x.text.toList = body := by rw [spelled]; rfl
    cases spelling with
    | nan => exact ⟨'N', _, spelled, by decide⟩
    | infinity => exact ⟨'I', _, spelled, by decide⟩
    | zero => exact ⟨'0', _, spelled, by decide⟩
    | numeral isNumeral =>
      obtain ⟨c, rest, rfl, digit, -⟩ := isNumeral
      refine ⟨c, rest, spelled, ?_⟩
      rintro rfl
      revert digit
      decide

/-- No operand starts with an equals sign. -/
theorem text_of_opens {t : Token} (opens : t.opens = true) (readable : t.IsReadable letters identifier)
    (s : List Char) : ∀ c ∈ ((t.text identifier).toList ++ s).head?, c ≠ '=' := by
  have first {c : Char} {rest : List Char} (text : (t.text identifier).toList = c :: rest)
      (other : c ≠ '=') : ∀ c ∈ ((t.text identifier).toList ++ s).head?, c ≠ '=' := by
    rw [text]
    exact fun d same => Option.some.inj same ▸ other
  cases t with
  | word _ => exact fun c head => ne_equals_of_isHead (head_of_word readable s c head)
  | callee predicate => exact fun c head => ne_equals_of_isHead (head_of_isWord readable s c head)
  | number x =>
    obtain ⟨c, rest, written, other⟩ := text_number x
    exact first written other
  | string _ =>
    exact first (c := '"') (by simp [text, Text.quoteScript, Text.quoteWith]; rfl) (by decide)
  | unary operator =>
    cases operator with
    | not => exact first (c := '!') (by simp [text, UnaryOperator.text]; rfl) (by decide)
    | typeOf => exact first (c := 't') (by simp [text, UnaryOperator.text]; rfl) (by decide)
  | openParen => exact first (c := '(') (by simp [text]; rfl) (by decide)
  | _ => cases opens

theorem FollowedBy.before {t next : Token} (h : t.FollowedBy next)
    (readable : next.IsReadable letters identifier) (s : List Char) :
    t.Before letters ((next.text identifier).toList ++ s) := by
  have mark (goesOn : next.goesOn = true) : AtMarkOrPoint ((next.text identifier).toList ++ s) := by
    obtain ⟨c, rest, written, mark, -⟩ := text_of_goesOn identifier goesOn
    rw [written]
    exact fun d same => Option.some.inj same ▸ mark
  cases t with
  | word _ => exact (mark h).apart
  | callee _ => exact (mark h).apart
  | number _ =>
    obtain ⟨c, rest, written, -, mark⟩ := text_of_goesOn identifier h.1
    rw [written]
    exact fun d same => Option.some.inj same ▸ mark h.2
  | unary operator =>
    cases operator with
    | not => exact text_of_opens h readable s
    | typeOf => trivial
  | dot =>
    obtain ⟨text, rfl⟩ := h
    exact head_of_word readable s
  | _ => trivial

end Token

/-! ## Texts of tokens -/

/-- Tokens in a good order are read as their lexemes. -/
theorem lexes_of_isChain {letters : Letters} {identifier : String → String} {ts : List Token}
    (readable : ∀ t ∈ ts, t.IsReadable letters identifier) (spaced : ts.IsChain Token.FollowedBy) :
    Lexes letters (fun s => ∀ t ∈ ts.getLast?, t.Before letters s) (text identifier ts).toList
      (ts.flatMap (Token.lexemes identifier)) := by
  induction ts with
  | nil => exact fun s _ => by simp [text]
  | cons t rest ih =>
    have text_cons : (text identifier (t :: rest)).toList =
        (t.text identifier).toList ++ (text identifier rest).toList := by
      simp [text]
    rw [text_cons, List.flatMap_cons]
    have here := Token.lexes (readable t List.mem_cons_self)
    have below := ih (fun t inside => readable t (List.mem_cons_of_mem _ inside)) spaced.tail
    cases rest with
    | nil =>
      refine here.append (below.mono fun _ _ => by rintro _ ⟨⟩) fun s after => ?_
      simpa [text] using after t rfl
    | cons next rest =>
      refine here.append (below.mono fun s after => by simpa using after) fun s _ => ?_
      have follows := (List.isChain_cons_cons.1 spaced).1
      have := follows.before (readable next (by simp)) ((text identifier rest).toList ++ s)
      simpa [text] using this

/-! ## Operands -/

namespace Token

theorem FollowedBy.of_ends {t next : Token} (ends : t.ends = true) (goesOn : next.goesOn = true)
    (point : next = dot → t.isNumber = false) : t.FollowedBy next := by
  cases t with
  | word _ => exact goesOn
  | callee _ => exact goesOn
  | number _ => exact ⟨goesOn, fun isDot => nomatch point isDot⟩
  | string _ => trivial
  | closeParen => trivial
  | closeBracket => trivial
  | _ => cases ends

end Token

/-- The tokens of an operand: it is read as its lexemes, and can stand between operators. -/
structure IsOperand (letters : Letters) (identifier : String → String) (ts : List Token) : Prop where
  readable : ∀ t ∈ ts, t.IsReadable letters identifier
  spaced : ts.IsChain Token.FollowedBy
  opens : ∃ t ∈ ts.head?, t.opens = true
  ends : ∃ t ∈ ts.getLast?, t.ends = true

namespace IsOperand

variable {letters : Letters} {identifier : String → String} {ts ts' : List Token}

theorem single {t : Token} (readable : t.IsReadable letters identifier) (opens : t.opens = true)
    (ends : t.ends = true) : IsOperand letters identifier [t] where
  readable := List.forall_mem_singleton.2 readable
  spaced := List.isChain_singleton t
  opens := ⟨t, rfl, opens⟩
  ends := ⟨t, rfl, ends⟩

/-- Something in front of an operand. -/
theorem cons (h : IsOperand letters identifier ts) {t : Token}
    (readable : t.IsReadable letters identifier) (opens : t.opens = true)
    (before : ∀ next, next.opens = true → t.FollowedBy next) : IsOperand letters identifier (t :: ts) where
  readable := List.forall_mem_cons.2 ⟨readable, h.readable⟩
  spaced := by
    obtain ⟨first, start, isOpening⟩ := h.opens
    refine List.isChain_cons.2 ⟨fun next here => ?_, h.spaced⟩
    obtain rfl : first = next := Option.some.inj (start.symm.trans here)
    exact before first isOpening
  opens := ⟨t, rfl, opens⟩
  ends := by
    obtain ⟨last, stop, isEnd⟩ := h.ends
    exact ⟨last, by simp [List.getLast?_cons, Option.mem_def.1 stop], isEnd⟩

/-- Something behind an operand. -/
theorem append (h : IsOperand letters identifier ts) {next : Token} (goesOn : next.goesOn = true)
    (point : next = .dot → ∀ t ∈ ts.getLast?, t.isNumber = false)
    (readable : ∀ t ∈ next :: ts', t.IsReadable letters identifier)
    (spaced : (next :: ts').IsChain Token.FollowedBy)
    (ends : ∃ t ∈ (next :: ts').getLast?, t.ends = true) :
    IsOperand letters identifier (ts ++ next :: ts') where
  readable t inside := (List.mem_append.1 inside).elim (h.readable t) (readable t)
  spaced := by
    obtain ⟨last, stop, isEnd⟩ := h.ends
    refine List.isChain_append.2 ⟨h.spaced, spaced, fun t here next' first => ?_⟩
    obtain rfl : last = t := Option.some.inj (stop.symm.trans here)
    obtain rfl : next = next' := Option.some.inj first
    exact .of_ends isEnd goesOn fun isDot => point isDot last stop
  opens := by
    obtain ⟨first, start, isOpening⟩ := h.opens
    exact ⟨first, by simp [List.head?_append, Option.mem_def.1 start], isOpening⟩
  ends := by
    obtain ⟨last, stop, isEnd⟩ := ends
    exact ⟨last, by rw [List.getLast?_append, Option.mem_def.1 stop]; rfl, isEnd⟩

theorem binary (h : IsOperand letters identifier ts) (operator : BinaryOperator)
    (h' : IsOperand letters identifier ts') :
    IsOperand letters identifier (ts ++ .binary operator :: ts') := by
  obtain ⟨last, stop, isEnd⟩ := h'.ends
  refine h.append rfl nofun (List.forall_mem_cons.2 ⟨trivial, h'.readable⟩)
    (List.isChain_cons.2 ⟨fun _ _ => trivial, h'.spaced⟩) ⟨last, ?_, isEnd⟩
  simp [List.getLast?_cons, Option.mem_def.1 stop]

/-- Brackets around an operand. -/
theorem bracketed (h : IsOperand letters identifier ts) (opening closing : Token)
    (brackets : (opening, closing) ∈ [(Token.openParen, Token.closeParen), (.openBracket, .closeBracket)]) :
    (∀ t ∈ opening :: (ts ++ [closing]), t.IsReadable letters identifier) ∧
      (opening :: (ts ++ [closing])).IsChain Token.FollowedBy ∧
      ∃ t ∈ (opening :: (ts ++ [closing])).getLast?, t.ends = true := by
  have sides : opening.IsReadable letters identifier ∧ closing.IsReadable letters identifier ∧
      (∀ t, opening.FollowedBy t) ∧ closing.goesOn = true ∧ closing ≠ .dot ∧ closing.ends = true := by
    simp only [List.mem_cons, List.not_mem_nil, or_false, Prod.mk.injEq] at brackets
    rcases brackets with ⟨rfl, rfl⟩ | ⟨rfl, rfl⟩ <;>
      exact ⟨trivial, trivial, fun _ => trivial, rfl, nofun, rfl⟩
  obtain ⟨openReadable, closeReadable, before, goesOn, notDot, isEnd⟩ := sides
  refine ⟨?_, List.isChain_cons.2 ⟨fun t _ => before t, ?_⟩, closing, ?_, isEnd⟩
  · intro t inside
    simp only [List.mem_cons, List.mem_append, List.not_mem_nil, or_false] at inside
    rcases inside with rfl | inside | rfl
    · exact openReadable
    · exact h.readable t inside
    · exact closeReadable
  · obtain ⟨last, stop, lastEnds⟩ := h.ends
    refine List.isChain_append.2 ⟨h.spaced, List.isChain_singleton closing, fun t here next first => ?_⟩
    obtain rfl : last = t := Option.some.inj (stop.symm.trans here)
    obtain rfl : closing = next := Option.some.inj first
    exact .of_ends lastEnds goesOn fun isDot => absurd isDot notDot
  · rw [← List.cons_append, List.getLast?_append]
    rfl

theorem enclose (h : IsOperand letters identifier ts) (least actual : Strength) :
    IsOperand letters identifier (Script.enclose least actual ts) := by
  unfold Script.enclose
  split
  · obtain ⟨readable, spaced, ends⟩ := h.bracketed .openParen .closeParen (by decide)
    exact ⟨readable, spaced, ⟨.openParen, rfl, rfl⟩, ends⟩
  · exact h

theorem apply {function : Token} (called : IsOperand letters identifier [function])
    (h : IsOperand letters identifier ts) : IsOperand letters identifier (applyTokens function ts) := by
  obtain ⟨readable, spaced, ends⟩ := h.bracketed .openParen .closeParen (by decide)
  exact called.append rfl nofun readable spaced ends

theorem index (h : IsOperand letters identifier ts) (h' : IsOperand letters identifier ts') :
    IsOperand letters identifier (ts ++ .openBracket :: ts' ++ [.closeBracket]) := by
  obtain ⟨readable, spaced, ends⟩ := h'.bracketed .openBracket .closeBracket (by decide)
  rw [List.append_assoc]
  exact h.append rfl nofun readable spaced ends

theorem point (h : IsOperand letters identifier ts) (notNumber : ∀ t ∈ ts.getLast?, t.isNumber = false)
    (name : String) (word : letters.isWord name.toList = true) :
    IsOperand letters identifier (ts ++ [.dot, .word name]) := by
  refine h.append rfl (fun _ => notNumber) ?_ ?_ ⟨.word name, rfl, rfl⟩
  · exact List.forall_mem_cons.2 ⟨trivial, List.forall_mem_singleton.2 (.inl word)⟩
  · exact List.isChain_cons_cons.2 ⟨⟨name, rfl⟩, List.isChain_singleton _⟩

theorem intercalate (operator : BinaryOperator) {lists : List (List Token)} (some : lists ≠ [])
    (all : ∀ ts ∈ lists, IsOperand letters identifier ts) :
    IsOperand letters identifier (List.intercalate [.binary operator] lists) := by
  induction lists with
  | nil => exact absurd rfl some
  | cons first rest ih =>
    have here := all first List.mem_cons_self
    cases rest with
    | nil => simpa [List.intercalate] using here
    | cons second rest =>
      have below := ih (List.cons_ne_nil _ _) fun ts inside => all ts (List.mem_cons_of_mem _ inside)
      simpa [List.intercalate, List.intersperse] using here.binary operator below

end IsOperand

/-! ## Expressions -/

section
variable {letters : Letters} {identifier : String → String}

theorem operandTokens_eq_map (least : Strength) (es : List Expr) :
    operandTokens least es = es.map fun e => enclose least (strength e) (tokens e) := by
  induction es with
  | nil => rw [operandTokens, List.map_nil]
  | cons e rest ih => rw [operandTokens, List.map_cons, ih]

theorem isWord_of_isIdentifier {key : String} (plain : Text.isIdentifier key = true) :
    letters.isWord key.toList = true := by
  obtain ⟨c, rest, spelled, head, tail⟩ := (Text.isIdentifier_eq_true_iff key).1 plain
  rw [spelled, Letters.isWord, Letters.isHead, head, Bool.true_or, Bool.true_and, List.all_eq_true]
  exact fun d inside => by rw [Letters.isTail, tail d inside, Bool.true_or]

/-- In front of a point stands no numeral. -/
theorem isNumber_last {e : Expr} (notNumber : isNumber e = false) :
    ∀ t ∈ (enclose .member (strength e) (tokens e)).getLast?, t.isNumber = false := by
  intro t last
  have closed (ts : List Token) {next : Token} (other : next.isNumber = false)
      (same : t ∈ (ts ++ [next]).getLast?) : t.isNumber = false := by
    rw [List.getLast?_append] at same
    exact Option.some.inj same ▸ other
  by_cases loose : (strength e).rank < Strength.member.rank
  · rw [enclose, if_pos loose] at last
    exact closed (.openParen :: tokens e) rfl last
  · rw [enclose, if_neg loose] at last
    have tight {strong : Strength} (same : strength e = strong) (weak : strong.rank < Strength.member.rank) :
        t.isNumber = false := absurd (same ▸ weak) loose
    fun_induction isNumber e with
    | case1 => cases notNumber
    | case2 _ _ _ body ih =>
      rw [strength] at loose tight
      rw [tokens] at last
      exact ih notNumber last loose tight
    | case3 e number inlined =>
      cases e with
      | number x => exact absurd rfl (number x)
      | inlined f reason a body => exact absurd rfl (inlined f reason a body)
      | var _ | undefined | null | bool _ | string _ =>
        rw [tokens] at last
        exact closed [] rfl last
      | typeOf _ | not _ | strictEq _ _ | strictNe _ _ | compare _ _ _ | hasKey _ _ =>
        exact tight (by rw [strength]) (by decide)
      | and operands | or operands =>
        cases operands with
        | nil =>
          rw [tokens] at last
          exact closed [] rfl last
        | cons first rest => exact tight (by rw [strength, List.isEmpty_cons, if_neg Bool.false_ne_true]) (by decide)
      | oneOf a options =>
        by_cases few : options.length ≤ 1
        · exact tight (by rw [strength, if_pos few]) (by decide)
        · exact tight (by rw [strength, if_neg few]) (by decide)
      | member a key =>
        rw [tokens, memberTokens] at last
        split at last
        · exact closed (enclose .member (strength a) (tokens a) ++ [.dot]) rfl (by simpa using last)
        · exact closed (enclose .member (strength a) (tokens a) ++ [.openBracket, .string key]) rfl
            (by simpa using last)
      | index a key =>
        rw [tokens] at last
        exact closed _ rfl last
      | length a =>
        rw [tokens] at last
        exact closed (enclose .member (strength a) (tokens a) ++ [.dot]) rfl (by simpa using last)
      | constructorName a =>
        rw [tokens] at last
        exact closed (enclose .member (strength a) (tokens a) ++ [.dot, .word "constructor", .dot]) rfl
          (by simpa using last)
      | isArray a | isBuffer a | isView a | call f a =>
        rw [tokens, applyTokens] at last
        exact closed _ rfl last

theorem isOperand_tokens (functions : ∀ f, letters.isWord (identifier f).toList = true) (e : Expr)
    (writable : IsWritable letters e) : IsOperand letters identifier (tokens e) := by
  induction e using Expr.operandInduction with
  | step e ih =>
    replace ih (a : Expr) (inside : a ∈ e.operands) : IsOperand letters identifier (tokens a) :=
      ih a inside (writable.of_operand inside)
    have enclosed (least : Strength) (a : Expr) (inside : a ∈ e.operands) :
        IsOperand letters identifier (enclose least (strength a) (tokens a)) :=
      (ih a inside).enclose least _
    have point {receiver : Expr} (inside : receiver ∈ e.operands) (accessed : receiver? e = some receiver)
        (name : String) (word : letters.isWord name.toList = true) : IsOperand letters identifier
          (enclose .member (strength receiver) (tokens receiver) ++ [.dot, .word name]) :=
      (enclosed _ _ inside).point (isNumber_last (writable.receiver accessed)) name word
    have chain (operator : BinaryOperator) (least : Strength) {first : Expr} {rest : List Expr}
        (inside : ∀ a ∈ first :: rest, a ∈ e.operands) : IsOperand letters identifier
          (List.intercalate [.binary operator] (operandTokens least (first :: rest))) := by
      rw [operandTokens_eq_map]
      exact .intercalate operator (List.cons_ne_nil _ _) (List.forall_mem_map.2 fun a here => enclosed least a (inside a here))
    have function (t : Token) (readable : t.IsReadable letters identifier) (opens : t.opens = true)
        (ends : t.ends = true) {a : Expr} (inside : a ∈ e.operands) :
        IsOperand letters identifier (applyTokens t (tokens a)) :=
      (IsOperand.single readable opens ends).apply (ih a inside)
    cases e with
    | var name =>
      have isVar : name ∈ (Expr.var name).varNames := by simp [Expr.varNames, Expr.nodes, Expr.varName?]
      rw [tokens]
      exact .single (.inl (writable.names name isVar).1) rfl rfl
    | undefined => rw [tokens]; exact .single (.inl rfl) rfl rfl
    | null => rw [tokens]; exact .single (.inl rfl) rfl rfl
    | bool b => rw [tokens]; exact .single (.inl (by cases b <;> rfl)) rfl rfl
    | number x => rw [tokens]; exact .single trivial rfl rfl
    | string s => rw [tokens]; exact .single trivial rfl rfl
    | typeOf a => rw [tokens]; exact (enclosed _ a (.head _)).cons trivial rfl fun _ _ => trivial
    | not a => rw [tokens]; exact (enclosed _ a (.head _)).cons trivial rfl fun _ opens => opens
    | strictEq a b => rw [tokens]; exact (enclosed _ a (.head _)).binary _ (enclosed _ b (.tail _ (.head _)))
    | strictNe a b => rw [tokens]; exact (enclosed _ a (.head _)).binary _ (enclosed _ b (.tail _ (.head _)))
    | compare order a b =>
      rw [tokens]; exact (enclosed _ a (.head _)).binary _ (enclosed _ b (.tail _ (.head _)))
    | hasKey key a =>
      rw [tokens]; exact (enclosed _ key (.head _)).binary _ (enclosed _ a (.tail _ (.head _)))
    | and operands =>
      cases operands with
      | nil => rw [tokens]; exact .single (.inl rfl) rfl rfl
      | cons first rest => rw [tokens]; exact chain _ _ fun _ inside => inside; simp
    | or operands =>
      cases operands with
      | nil => rw [tokens]; exact .single (.inl rfl) rfl rfl
      | cons first rest => rw [tokens]; exact chain _ _ fun _ inside => inside; simp
    | member a key =>
      rw [tokens, memberTokens]
      split
      · rename_i plain
        exact point (.head _) (by rw [receiver?, if_pos plain]) key (isWord_of_isIdentifier plain)
      · have text : IsOperand letters identifier [.string key] := .single trivial rfl rfl
        simpa using (enclosed .member a (.head _)).index text
    | index a key => rw [tokens]; exact (enclosed _ a (.head _)).index (ih key (.tail _ (.head _)))
    | length a =>
      rw [tokens]
      exact point (.head _) rfl "length" rfl
    | constructorName a =>
      rw [tokens]
      have front := point (.head _) rfl "constructor" rfl
      simpa using front.point (by simp [Token.isNumber]) "name" rfl
    | isArray a => rw [tokens]; exact function (.word _) (.inr (by decide)) rfl rfl (.head _)
    | isBuffer a => rw [tokens]; exact function (.word _) (.inl rfl) rfl rfl (.head _)
    | isView a => rw [tokens]; exact function (.word _) (.inr (by decide)) rfl rfl (.head _)
    | call f a => rw [tokens]; exact function (.callee f) (functions f) rfl rfl (.head _)
    | oneOf a options =>
      rw [tokens]
      cases options with
      | nil => exact .single (.inl rfl) rfl rfl
      | cons option rest =>
        refine .intercalate _ (List.cons_ne_nil _ _) (List.forall_mem_map.2 fun text _ => ?_)
        exact (enclosed _ a (.head _)).binary .strictEq (.single trivial rfl rfl)
    | inlined f reason a body => rw [tokens]; exact ih body (.tail _ (.head _))

/-- The text of an expression is read as the lexemes of its tokens. -/
theorem lex_tokens (functions : ∀ f, letters.isWord (identifier f).toList = true) (least : Strength)
    {e : Expr} (writable : IsWritable letters e) :
    lex letters (text identifier (enclose least (strength e) (tokens e))).toList =
      some ((enclose least (strength e) (tokens e)).flatMap (Token.lexemes identifier)) := by
  have whole := (isOperand_tokens functions e writable).enclose least (strength e)
  have read := lexes_of_isChain whole.readable whole.spaced [] fun t _ => t.before_nil
  rwa [List.append_nil, lex, Option.map_some, List.append_nil] at read

end

end Script

end ShapeCheck
