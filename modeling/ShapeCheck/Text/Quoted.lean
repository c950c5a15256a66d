import ShapeCheck.Text.Printable

set_option autoImplicit false

/-! # Quoted texts

Three quotations of a text occur in answers. They differ in what they spell by escapes:

* `Text.quote`, in names of predicates and in JSON output: quotes, backslashes and ASCII controls;
* `Text.quoteVisible`, in messages: also every character that would not show;
* `Text.quoteScript`, in scripts: also every control and the two line separators, which would end
  the line of a script.

Each of them is spelled character by character, so a quotation of a longer text contains those of
its parts.
-/

namespace ShapeCheck

namespace Text

/-- The hexadecimal digits of `n`, at least `width` of them. -/
def hex (width n : Nat) : List Char :=
  let digits := Nat.toDigits 16 n
  List.replicate (width - digits.length) '0' ++ digits

/-- Spells each character and puts double quotes around the result. -/
def quoteWith (spell : Char → List Char) (s : String) : String :=
  String.ofList ('"' :: s.toList.flatMap spell ++ ['"'])

/-! ## JSON quotation -/

/-- How a character is spelled in a JSON string. -/
def spellJson (c : Char) : List Char :=
  if c = '"' then ['\\', '"']
  else if c = '\\' then ['\\', '\\']
  else if c = '\n' then ['\\', 'n']
  else if c = '\r' then ['\\', 'r']
  else if c = '\t' then ['\\', 't']
  else if c = '\x08' then ['\\', 'b']
  else if c = '\x0c' then ['\\', 'f']
  else if c.toNat < 0x20 then '\\' :: 'u' :: hex 4 c.toNat
  else [c]

/-- The text as a JSON string. -/
def quote (s : String) : String := quoteWith spellJson s

/-! ## Quotation in messages -/

/-- How a character is spelled in a message. -/
def spellVisible (c : Char) : List Char :=
  if c = '\x00' then ['\\', '0']
  else if c = '\t' then ['\\', 't']
  else if c = '\r' then ['\\', 'r']
  else if c = '\n' then ['\\', 'n']
  else if c = '\\' then ['\\', '\\']
  else if c = '"' then ['\\', '"']
  else if isPrintable c then [c]
  else ['\\', 'u', '\x7b'] ++ Nat.toDigits 16 c.toNat ++ ['\x7d']

/-- The text as a message shows it. -/
def quoteVisible (s : String) : String := quoteWith spellVisible s

/-! ## Quotation in scripts -/

/-- A control character, also of the second block of controls. -/
def isControl (c : Char) : Bool := c.toNat < 0x20 || (0x7f ≤ c.toNat && c.toNat < 0xa0)

/-- How a character is spelled in a string literal of a script. -/
def spellScript (c : Char) : List Char :=
  if c = '"' then ['\\', '"']
  else if c = '\\' then ['\\', '\\']
  else if c = '\n' then ['\\', 'n']
  else if c = '\r' then ['\\', 'r']
  else if c = '\t' then ['\\', 't']
  else if c.toNat = 0x2028 ∨ c.toNat = 0x2029 ∨ isControl c then
    '\\' :: 'u' :: (hex 4 c.toNat).map Char.toUpper
  else [c]

/-- The text as a string literal of a script. -/
def quoteScript (s : String) : String := quoteWith spellScript s

end Text

end ShapeCheck
