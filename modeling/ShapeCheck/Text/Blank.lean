set_option autoImplicit false

/-! # Blank characters and letter case

`Text.isBlank` is the Unicode property White_Space. Options and format names may be surrounded by
blanks and written in any case; the words that they are compared with are ASCII, and no character
outside ASCII becomes a letter of theirs in lower case, so folding ASCII letters is enough.

Main fact: `isBlank_of_isWhitespace` (what is white space in ASCII is blank here).
-/

namespace ShapeCheck

namespace Text

/-- The Unicode property White_Space. -/
def isBlank (c : Char) : Bool :=
  let n := c.toNat
  (9 ≤ n && n ≤ 13) || n == 0x20 || n == 0x85 || n == 0xa0 || n == 0x1680 ||
    (0x2000 ≤ n && n ≤ 0x200a) || n == 0x2028 || n == 0x2029 || n == 0x202f || n == 0x205f ||
    n == 0x3000

theorem isBlank_of_isWhitespace (c : Char) (h : c.isWhitespace = true) : isBlank c = true := by
  simp only [Char.isWhitespace, Bool.or_eq_true, decide_eq_true_eq] at h
  rcases h with ((rfl | rfl) | rfl) | rfl <;> decide

/-- The text without blanks at its two ends. -/
def trim (s : String) : String :=
  String.ofList ((s.toList.dropWhile isBlank).reverse.dropWhile isBlank).reverse

/-- The text without blanks around it and with small ASCII letters, as option words are compared. -/
def normalizeWord (s : String) : String :=
  String.ofList ((trim s).toList.map Char.toLower)

/-! ## Words for truth values -/

/-- The truth value that a word stands for. -/
def truthWord? (s : String) : Option Bool :=
  let word := normalizeWord s
  if word ∈ ["true", "1", "yes", "on"] then some true
  else if word ∈ ["false", "0", "no", "off"] then some false
  else none

end Text

end ShapeCheck
