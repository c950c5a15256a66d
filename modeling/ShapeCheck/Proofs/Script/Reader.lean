import ShapeCheck.Number.Decimal
import ShapeCheck.Script.Program

set_option autoImplicit false

/-! # Reading expressions of the script language

A text is split into lexemes as the script language has it: blanks and ends of lines are skipped, a word
or a numeral goes on as far as it can, and of the signs the longest one is taken. Comments, regular
expressions, exponents and escapes in words are not read. Lexemes are then put together by the strength of
the operators: a stack holds what still waits for its right operand, and an operator first closes all that
binds at least as strongly as itself, which makes all binary operators group to the left.

The reader knows nothing of predicates, or of how expressions are written.
-/

namespace ShapeCheck

namespace Script

/-! ## Trees -/

/-- An expression of the script language. -/
inductive Tree
  | identifier (name : String)
  | null
  | bool (value : Bool)
  | number (value : Double)
  | string (value : String)
  | unary (operator : UnaryOperator) (operand : Tree)
  | negate (operand : Tree)
  | binary (operator : BinaryOperator) (left right : Tree)
  | dot (whole : Tree) (name : String)
  | index (whole key : Tree)
  | apply (function argument : Tree)
  deriving DecidableEq, Repr, Inhabited

/-! ## Characters -/

/-- The characters beyond ASCII that may start an identifier, and those that may also continue one. -/
structure Letters where
  start : Char → Bool
  continue_ : Char → Bool

/-- A blank, or the end of a line. -/
def isSpace (c : Char) : Bool :=
  endsLine c || c.toNat ∈ [0x9, 0xb, 0xc, 0x20, 0xa0, 0xfeff, 0x1680, 0x202f, 0x205f, 0x3000] ||
    (0x2000 ≤ c.toNat && c.toNat ≤ 0x200a)

/-- The character is not ASCII, and no blank. -/
def isForeign (c : Char) : Bool := 0x80 ≤ c.toNat && !isSpace c

namespace Letters

variable (letters : Letters)

/-- A character that starts a word. -/
def isHead (c : Char) : Bool := Text.isIdentifierHead c || (isForeign c && letters.start c)

/-- A character that continues a word. -/
def isTail (c : Char) : Bool :=
  Text.isIdentifierTail c || (isForeign c && (letters.start c || letters.continue_ c))

/-- The characters spell a word. -/
def isWord : List Char → Bool
  | [] => false
  | c :: rest => letters.isHead c && rest.all letters.isTail

end Letters

/-- The words that are no identifiers. -/
def reserved : List String :=
  ["await", "break", "case", "catch", "class", "const", "continue", "debugger", "default", "delete",
    "do", "else", "enum", "export", "extends", "false", "finally", "for", "function", "if", "import",
    "in", "instanceof", "new", "null", "return", "super", "switch", "this", "throw", "true", "try",
    "typeof", "var", "void", "while", "with", "yield"]

/-- The text is an identifier: a word that is not reserved. -/
def Letters.IsIdentifier (letters : Letters) (text : String) : Prop :=
  letters.isWord text.toList = true ∧ text ∉ reserved

/-! ## Lexemes -/

/-- A lexeme of the script language. -/
inductive Lexeme
  | word (text : String)
  | number (value : Double)
  | string (value : String)
  | sign (text : String)
  deriving DecidableEq, Repr, Inhabited

/-- All signs, a longer one before those that it starts with. -/
def signs : List String :=
  [">>>=", "...", "===", "!==", "**=", "<<=", ">>=", ">>>", "&&=", "||=", "??=", "=>", "==", "!=", "<=",
    ">=", "&&", "||", "??", "?.", "++", "--", "+=", "-=", "*=", "%=", "&=", "|=", "^=", "<<", ">>", "**",
    "\x7b", "\x7d", "(", ")", "[", "]", ".", ";", ",", "<", ">", "+", "-", "*", "%", "&", "|", "^", "!", "~",
    "?", ":", "="]

/-- The longest sign that a text starts with. -/
def sign? (cs : List Char) : Option (Lexeme × List Char) :=
  (signs.find? fun sign => sign.toList.isPrefixOf cs).map fun sign =>
    (.sign sign, cs.drop sign.length)

/-- What a letter stands for behind a backslash. -/
def escapes : List (Char × Char) :=
  [('n', '\n'), ('r', '\r'), ('t', '\t'), ('b', '\x08'), ('f', '\x0c'), ('v', '\x0b')]

/-- What a character stands for behind a backslash. -/
def escaped? (c : Char) : Option Char :=
  match escapes.lookup c with
  | some other => some other
  | none => if c.isDigit || c == 'x' || c == 'u' || endsLine c then none else some c

/-- The value of a hexadecimal digit. -/
def hexValue? (c : Char) : Option Nat :=
  if c.isDigit then some (c.toNat - '0'.toNat)
  else if 'a' ≤ c ∧ c ≤ 'f' then some (c.toNat - 'a'.toNat + 10)
  else if 'A' ≤ c ∧ c ≤ 'F' then some (c.toNat - 'A'.toNat + 10)
  else none

/-- The character that four hexadecimal digits number. Halves of surrogate pairs are none. -/
def hexChar? (digits : List Char) : Option Char := do
  let values ← digits.mapM hexValue?
  let n := values.foldl (fun n value => 16 * n + value) 0
  if n.isValidChar then some (Char.ofNat n) else none

/-- Reads the rest of a string literal, which has to end before the line does. -/
def string? : List Char → Option (List Char × List Char)
  | [] => none
  | '"' :: rest => some ([], rest)
  | '\\' :: 'u' :: a :: b :: c :: d :: rest =>
    (hexChar? [a, b, c, d]).bind fun char => (string? rest).map (Prod.map (char :: ·) id)
  | '\\' :: c :: rest =>
    (escaped? c).bind fun char => (string? rest).map (Prod.map (char :: ·) id)
  | c :: rest => if endsLine c then none else (string? rest).map (Prod.map (c :: ·) id)

/-- The digits behind a point, if there is one, and what is behind them. -/
def fractionOf : List Char → List Char × List Char
  | '.' :: rest => (rest.takeWhile Char.isDigit, rest.dropWhile Char.isDigit)
  | rest => ([], rest)

/-- Reads a numeral. Nothing that could belong to a word or to another numeral may follow, and only a
single digit may start with a zero. -/
def number? (letters : Letters) (cs : List Char) : Option (Double × List Char) :=
  let whole := cs.takeWhile Char.isDigit
  let (fraction, rest) := fractionOf (cs.dropWhile Char.isDigit)
  if whole.head? = some '0' ∧ whole.length ≠ 1 ∨ rest.head?.any letters.isTail then none
  else some (Decimal.toDouble ⟨false, Nat.ofDigitChars 10 (whole ++ fraction) 0, -fraction.length⟩, rest)

/-- Reads a lexeme that starts with a character. -/
def lexeme? (letters : Letters) (c : Char) (rest : List Char) : Option (Lexeme × List Char) :=
  if letters.isHead c then
    some (.word (String.ofList (c :: rest.takeWhile letters.isTail)), rest.dropWhile letters.isTail)
  else if c.isDigit then (number? letters (c :: rest)).map fun (x, rest) => (.number x, rest)
  else if c == '"' then (string? rest).map fun (text, rest) => (.string (String.ofList text), rest)
  -- a point in front of a digit starts a numeral
  else if c == '.' && rest.head?.any Char.isDigit then none
  else sign? (c :: rest)

/-! ## Lexemes of a text -/

theorem length_dropWhile_le {α : Type} (test : α → Bool) (items : List α) :
    (items.dropWhile test).length ≤ items.length :=
  (List.dropWhile_suffix test).length_le

theorem length_of_string? {cs text rest : List Char} (found : string? cs = some (text, rest)) :
    rest.length < cs.length := by
  fun_induction string? cs generalizing text rest with
  | case1 | case5 => cases found
  | case2 tail =>
    obtain ⟨-, rfl⟩ := Prod.mk.inj (Option.some.inj found)
    exact Nat.lt_succ_self _
  | case3 a b c d tail ih =>
    obtain ⟨char, -, made⟩ := Option.bind_eq_some_iff.1 found
    obtain ⟨⟨inner, after⟩, here, same⟩ := Option.map_eq_some_iff.1 made
    obtain ⟨-, rfl⟩ := Prod.mk.inj same
    have := ih here
    simp only [List.length_cons, id]
    omega
  | case4 c tail _ ih =>
    obtain ⟨char, -, made⟩ := Option.bind_eq_some_iff.1 found
    obtain ⟨⟨inner, after⟩, here, same⟩ := Option.map_eq_some_iff.1 made
    obtain ⟨-, rfl⟩ := Prod.mk.inj same
    have := ih here
    simp only [List.length_cons, id]
    omega
  | case6 c tail _ _ _ _ ih =>
    obtain ⟨⟨inner, after⟩, here, same⟩ := Option.map_eq_some_iff.1 found
    obtain ⟨-, rfl⟩ := Prod.mk.inj same
    have := ih here
    simp only [List.length_cons, id]
    omega

theorem length_fractionOf_le (cs : List Char) : (fractionOf cs).2.length ≤ cs.length := by
  unfold fractionOf
  split
  · exact Nat.le_succ_of_le (length_dropWhile_le _ _)
  · exact Nat.le_refl _

theorem length_of_number? {letters : Letters} {c : Char} {cs rest : List Char} {x : Double}
    (digit : c.isDigit = true) (found : number? letters (c :: cs) = some (x, rest)) :
    rest.length ≤ cs.length := by
  unfold number? at found
  rw [List.dropWhile_cons_of_pos digit] at found
  have short := length_fractionOf_le (cs.dropWhile Char.isDigit)
  dsimp only at found
  split at found
  · cases found
  · obtain ⟨-, rfl⟩ := Prod.mk.inj (Option.some.inj found)
    exact Nat.le_trans short (length_dropWhile_le Char.isDigit cs)

theorem length_of_sign? {cs rest : List Char} {lexeme : Lexeme}
    (found : sign? cs = some (lexeme, rest)) : rest.length < cs.length := by
  obtain ⟨sign, here, same⟩ := Option.map_eq_some_iff.1 found
  obtain ⟨-, rfl⟩ := Prod.mk.inj same
  have begins : sign.toList.isPrefixOf cs = true := by simpa using List.find?_some here
  have long : 0 < sign.length := by
    have all : ∀ sign ∈ signs, 0 < sign.length := by decide
    exact all sign (List.mem_of_find?_eq_some here)
  have fits := (List.isPrefixOf_iff_prefix.1 begins).length_le
  rw [String.length_toList] at fits
  rw [List.length_drop]
  omega

theorem length_of_lexeme? {letters : Letters} {c : Char} {cs rest : List Char} {lexeme : Lexeme}
    (found : lexeme? letters c cs = some (lexeme, rest)) : rest.length ≤ cs.length := by
  unfold lexeme? at found
  split at found
  · obtain ⟨-, rfl⟩ := Prod.mk.inj (Option.some.inj found)
    exact length_dropWhile_le _ cs
  split at found
  · rename_i digit
    obtain ⟨⟨x, after⟩, here, same⟩ := Option.map_eq_some_iff.1 found
    obtain ⟨-, rfl⟩ := Prod.mk.inj same
    exact length_of_number? digit here
  split at found
  · obtain ⟨⟨text, after⟩, here, same⟩ := Option.map_eq_some_iff.1 found
    obtain ⟨-, rfl⟩ := Prod.mk.inj same
    exact Nat.le_of_lt (length_of_string? here)
  split at found
  · cases found
  · exact Nat.le_of_lt_succ (length_of_sign? found)

/-- The lexemes of a text. -/
def lex (letters : Letters) : List Char → Option (List Lexeme)
  | [] => some []
  | c :: cs =>
    if isSpace c then lex letters cs
    else
      match _found : lexeme? letters c cs with
      | none => none
      | some (lexeme, rest) => (lex letters rest).map (lexeme :: ·)
termination_by cs => cs.length
decreasing_by
  · exact Nat.lt_succ_self _
  · exact Nat.lt_succ_of_le (length_of_lexeme? _found)

/-! ## Operators -/

/-- How strongly an operator binds, in the order of the script language. -/
def level : BinaryOperator → Nat
  | .or => 0
  | .and => 1
  | .strictEq | .strictNe => 2
  | .compare _ | .hasKey => 3

/-- How strongly an operator in front of its operand binds. -/
def unaryLevel : Nat := 4

/-- All operators between two operands. -/
def binaryOperators : List BinaryOperator :=
  [.or, .and, .strictEq, .strictNe, .compare .lt, .compare .le, .compare .gt, .compare .ge, .hasKey]

/-- The operator that a lexeme is behind an operand. -/
def operator? : Lexeme → Option BinaryOperator
  | .word text => if text = "in" then some .hasKey else none
  | .sign text => binaryOperators.find? (·.sign == text)
  | _ => none

/-- The constant that a word is. -/
def constant? (text : String) : Option Tree :=
  if text = "null" then some .null
  else if text = "true" then some (.bool true)
  else if text = "false" then some (.bool false)
  else none

/-! ## The stack -/

/-- What has been read and waits for what follows. -/
inductive Frame
  | unary (operator : UnaryOperator)
  | negate
  | binary (operator : BinaryOperator) (left : Tree)
  /-- An open parenthesis around an operand. -/
  | group
  /-- An open bracket behind what is accessed. -/
  | index (whole : Tree)
  /-- An open parenthesis behind what is called. -/
  | apply (function : Tree)
  deriving DecidableEq, Repr, Inhabited

namespace Frame

/-- How strongly the frame binds the operand that it waits for; brackets do not. -/
def level? : Frame → Option Nat
  | unary _ | negate => some unaryLevel
  | binary operator _ => some (level operator)
  | group | index _ | apply _ => none

/-- What a frame becomes with its operand. -/
def close (operand : Tree) : Frame → Tree
  | unary operator => .unary operator operand
  | negate => .negate operand
  | binary operator left => .binary operator left operand
  | group | index _ | apply _ => operand

end Frame

/-- Closes all frames that bind at least as strongly as a level, up to the first one that does not. -/
def settle (least : Nat) : Tree → List Frame → Tree × List Frame
  | operand, [] => (operand, [])
  | operand, frame :: rest =>
    if frame.level?.any (least ≤ ·) then settle least (frame.close operand) rest
    else (operand, frame :: rest)

/-! ## Expressions -/

mutual

/-- Goes on where an operand has to come. -/
def readOperand (stack : List Frame) : List Lexeme → Option Tree
  | [] => none
  | .number x :: rest => readOperator stack (.number x) rest
  | .string text :: rest => readOperator stack (.string text) rest
  | .word text :: rest =>
    if text = "typeof" then readOperand (.unary .typeOf :: stack) rest
    else
      match constant? text with
      | some constant => readOperator stack constant rest
      | none => if text ∈ reserved then none else readOperator stack (.identifier text) rest
  | .sign text :: rest =>
    if text = "!" then readOperand (.unary .not :: stack) rest
    else if text = "-" then readOperand (.negate :: stack) rest
    else if text = "(" then readOperand (.group :: stack) rest
    else none

/-- Goes on behind an operand. -/
def readOperator (stack : List Frame) (operand : Tree) : List Lexeme → Option Tree
  | [] =>
    match settle 0 operand stack with
    | (whole, []) => some whole
    | _ => none
  | lexeme :: rest =>
    match operator? lexeme with
    | some operator =>
      let (left, below) := settle (level operator) operand stack
      readOperand (.binary operator left :: below) rest
    | none =>
      if lexeme = .sign "." then
        match rest with
        | .word name :: rest => readOperator stack (.dot operand name) rest
        | _ => none
      else if lexeme = .sign "[" then readOperand (.index operand :: stack) rest
      else if lexeme = .sign "(" then readOperand (.apply operand :: stack) rest
      else if lexeme = .sign "]" then
        match settle 0 operand stack with
        | (key, .index whole :: below) => readOperator below (.index whole key) rest
        | _ => none
      else if lexeme = .sign ")" then
        match settle 0 operand stack with
        | (inner, .group :: below) => readOperator below inner rest
        | (argument, .apply function :: below) => readOperator below (.apply function argument) rest
        | _ => none
      else none

end

/-- Reads a text as an expression. -/
def read (letters : Letters) (text : String) : Option Tree :=
  (lex letters text.toList).bind (readOperand [])

end Script

end ShapeCheck
