import ShapeCheck.Number.Decimal

set_option autoImplicit false

/-! # The tokens of a JSON text

`Json.tokens` cuts a text into brackets, commas, colons, words, numerals and strings. White space
between tokens leaves no trace, so two texts with the same tokens say the same thing. A text that
stops being JSON inside a token ends in a `broken` token, which keeps what went wrong.

Two readers share the tokens. One needs the contents of a string or numeral; the other only has to
get past them and forgives more: half of a surrogate pair is an error for the first reader and none
for the second. A `Break` therefore holds the fault for each of the two.

Main fact: `tokens_blank` (white space in front of a text changes no token).
-/

namespace ShapeCheck

namespace Json

/-- Why reading a text fails. -/
inductive Fault
  /-- The text ends too early. -/
  | ended
  /-- The text is not JSON, or beyond what a reader accepts. -/
  | malformed
  /-- The text is JSON, but not of the expected form. -/
  | mismatch
  deriving DecidableEq, Repr, Inhabited

/-- A place where a text stops being JSON. -/
structure Break where
  /-- The fault for a reader that needs the contents. -/
  strict : Fault
  /-- The fault for a reader that skips the contents. -/
  lenient : Fault
  deriving DecidableEq, Repr, Inhabited

/-- A break that is the same for both readers. -/
def Break.both (fault : Fault) : Break := ⟨fault, fault⟩

/-- A number as it is spelled. -/
structure Numeral where
  /-- The number. -/
  value : Decimal
  /-- It is spelled by digits alone, without a point or an exponent. -/
  whole : Bool
  deriving DecidableEq, Repr, Inhabited

/-- The least unit of a JSON text. A string without contents spells half of a surrogate pair. -/
inductive Token
  | openArray
  | closeArray
  | openObject
  | closeObject
  | comma
  | colon
  | null
  | bool (value : Bool)
  | number (value : Numeral)
  | string (contents : Option String)
  | brokenString (why : Break)
  | broken (why : Break)
  deriving DecidableEq, Repr, Inhabited

/-! ## Strings -/

/-- The value of a hexadecimal digit. -/
def hexValue? (c : Char) : Option Nat :=
  if c.isDigit then some (c.toNat - '0'.toNat)
  else if 'a' ≤ c ∧ c ≤ 'f' then some (c.toNat - 'a'.toNat + 10)
  else if 'A' ≤ c ∧ c ≤ 'F' then some (c.toNat - 'A'.toNat + 10)
  else none

/-- The number that four hexadecimal digits spell. -/
def hexUnit? (a b c d : Char) : Option Nat := do
  let a ← hexValue? a
  let b ← hexValue? b
  let c ← hexValue? c
  let d ← hexValue? d
  return 4096 * a + 256 * b + 16 * c + d

/-- The first half of a surrogate pair. -/
def isHighSurrogate (unit : Nat) : Bool := 0xd800 ≤ unit && unit < 0xdc00

/-- The second half of a surrogate pair. -/
def isLowSurrogate (unit : Nat) : Bool := 0xdc00 ≤ unit && unit < 0xe000

/-- The character of a surrogate pair. -/
def pairedChar (high low : Nat) : Char :=
  Char.ofNat (0x10000 + (high - 0xd800) * 0x400 + (low - 0xdc00))

/-- The character of an escape of one letter. -/
def simpleEscape? : Char → Option Char
  | '"' => some '"'
  | '\\' => some '\\'
  | '/' => some '/'
  | 'b' => some '\x08'
  | 'f' => some '\x0c'
  | 'n' => some '\n'
  | 'r' => some '\r'
  | 't' => some '\t'
  | _ => none

/-- What has been read of a string: its characters, last first, or nothing once half of a surrogate
pair stood alone. -/
abbrev Spelled := Option (List Char)

/-- A string that breaks off. What was wrong before counts for the reader of the contents. -/
def breakOff (spelled : Spelled) (fault : Fault) : Token :=
  .brokenString ⟨if spelled.isSome then fault else .malformed, fault⟩

/-- The fault of an escape by number that is not four digits: it is cut short if fewer than four
bytes of text are left. -/
def hexFault (rest : List Char) : Fault :=
  if (rest.take 4).foldl (fun size c => size + c.utf8Size) 0 < 4 then .ended else .malformed

/-- What a code unit adds to a string after a pending high surrogate. A low surrogate completes the
pair; anything else leaves it alone. -/
def addUnit (spelled : Spelled) (pending : Option Nat) (unit : Nat) : Spelled × Option Nat :=
  match pending with
  | some high =>
    if isLowSurrogate unit then (spelled.map (pairedChar high unit :: ·), none) else (none, none)
  | none =>
    if isHighSurrogate unit then (spelled, some unit)
    else if isLowSurrogate unit then (none, none)
    else (spelled.map (Char.ofNat unit :: ·), none)

/-- What a plain character adds; it leaves a pending high surrogate alone. -/
def addChar (spelled : Spelled) (pending : Option Nat) (c : Char) : Spelled :=
  if pending.isSome then none else spelled.map (c :: ·)

/-- The rest of a string after its opening quote, and the text behind it. -/
def lexString (spelled : Spelled) (pending : Option Nat) : List Char → Token × List Char
  | [] => (breakOff spelled .ended, [])
  | '"' :: rest =>
    (.string
      (if pending.isSome then none else spelled.map fun cs => String.ofList cs.reverse), rest)
  | '\\' :: 'u' :: a :: b :: c :: d :: rest =>
    match hexUnit? a b c d with
    | some unit =>
      let (spelled, pending) := addUnit spelled pending unit
      lexString spelled pending rest
    | none => (breakOff spelled (hexFault (a :: b :: c :: d :: rest)), [])
  -- fewer than four characters are left, but they may take four bytes
  | '\\' :: 'u' :: rest => (breakOff spelled (hexFault rest), [])
  | '\\' :: c :: rest =>
    match simpleEscape? c with
    | some e => lexString (addChar spelled pending e) none rest
    | none => (breakOff spelled .malformed, [])
  | ['\\'] => (breakOff spelled .ended, [])
  | c :: rest =>
    if c.toNat < 0x20 then (breakOff spelled .malformed, [])
    else lexString (addChar spelled pending c) none rest

/-! ## Numerals -/

/-- A numeral that breaks off: one cut short by the end of the text is a fault of its own kind only
for the reader of its value. -/
def breakNumeral (rest : List Char) : Token :=
  .broken ⟨if rest.isEmpty then .ended else .malformed, .malformed⟩

/-- The exponent of a numeral, after its letter. -/
def lexExponent (negative : Bool) (digits : Nat) (exponent : Int) (text : List Char) :
    Token × List Char :=
  let (down, text) :=
    match text with
    | '-' :: rest => (true, rest)
    | '+' :: rest => (false, rest)
    | _ => (false, text)
  let power := text.takeWhile Char.isDigit
  let rest := text.dropWhile Char.isDigit
  if power.isEmpty then (breakNumeral rest, [])
  else
    let size : Int := Decimal.readDigits 0 power
    (.number ⟨⟨negative, digits, exponent + (if down then -size else size)⟩, false⟩, rest)

/-- What follows the digits of a numeral: an exponent or nothing. -/
def lexPower (negative : Bool) (digits : Nat) (exponent : Int) (whole : Bool) :
    List Char → Token × List Char
  | 'e' :: rest => lexExponent negative digits exponent rest
  | 'E' :: rest => lexExponent negative digits exponent rest
  | rest => (.number ⟨⟨negative, digits, exponent⟩, whole⟩, rest)

/-- What follows the integer part of a numeral. -/
def lexFraction (negative : Bool) (digits : Nat) : List Char → Token × List Char
  | '.' :: text =>
    let places := text.takeWhile Char.isDigit
    let rest := text.dropWhile Char.isDigit
    if places.isEmpty then (breakNumeral rest, [])
    else lexPower negative (Decimal.readDigits digits places) (-(places.length : Int)) false rest
  | rest => lexPower negative digits 0 true rest

/-- A numeral after its sign. A leading zero stands alone. -/
def lexNumeral (negative : Bool) (text : List Char) : Token × List Char :=
  match text with
  | '0' :: d :: rest =>
    if d.isDigit then (.broken (.both .malformed), []) else lexFraction negative 0 (d :: rest)
  | _ =>
    let digits := text.takeWhile Char.isDigit
    let rest := text.dropWhile Char.isDigit
    if digits.isEmpty then (breakNumeral rest, [])
    else lexFraction negative (Decimal.readDigits 0 digits) rest

/-! ## Words -/

/-- Reads the rest of a word: it is cut short at the end of the text and malformed where the text
says otherwise. -/
def lexWord (token : Token) : List Char → List Char → Token × List Char
  | [], rest => (token, rest)
  | _ :: _, [] => (.broken (.both .ended), [])
  | w :: word, c :: rest =>
    if w = c then lexWord token word rest else (.broken (.both .malformed), [])

/-! ## Texts -/

/-- White space between tokens. -/
def isSpace (c : Char) : Bool := c == ' ' || c == '\n' || c == '\t' || c == '\r'

/-- The token that starts with `c`, and the text behind it. -/
def lexToken (c : Char) (rest : List Char) : Token × List Char :=
  match c with
  | '[' => (.openArray, rest)
  | ']' => (.closeArray, rest)
  | '{' => (.openObject, rest)
  | '}' => (.closeObject, rest)
  | ',' => (.comma, rest)
  | ':' => (.colon, rest)
  | '"' => lexString (some []) none rest
  | 'n' => lexWord .null ['u', 'l', 'l'] rest
  | 't' => lexWord (.bool true) ['r', 'u', 'e'] rest
  | 'f' => lexWord (.bool false) ['a', 'l', 's', 'e'] rest
  | '-' => lexNumeral true rest
  | _ => if c.isDigit then lexNumeral false (c :: rest) else (.broken (.both .malformed), [])

/-- The tokens of a text of at most `fuel` characters. -/
def tokensWithin : Nat → List Char → List Token
  | 0, _ => []
  | _ + 1, [] => []
  | fuel + 1, c :: rest =>
    if isSpace c then tokensWithin fuel rest
    else
      let (token, rest) := lexToken c rest
      token :: tokensWithin fuel rest

/-- The tokens of a text. Every step takes a character off, so its length is fuel enough. -/
def tokens (text : String) : List Token := tokensWithin text.toList.length text.toList

theorem tokens_blank (c : Char) (text : List Char) (h : isSpace c = true) :
    tokens (String.ofList (c :: text)) = tokens (String.ofList text) := by
  simp [tokens, tokensWithin, h]

end Json

end ShapeCheck
