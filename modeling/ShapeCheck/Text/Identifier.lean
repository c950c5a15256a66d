set_option autoImplicit false

/-! # Identifiers

Property names and type names that are identifiers of the script language are written bare; all
other names are quoted. Only ASCII identifiers count.

Main fact: `isIdentifier_eq_true_iff` (a head character, then only tail characters).
-/

namespace ShapeCheck

namespace Text

/-- A character that may start an identifier. -/
def isIdentifierHead (c : Char) : Bool := c.isAlpha || c == '_' || c == '$'

/-- A character that may continue an identifier. -/
def isIdentifierTail (c : Char) : Bool := c.isAlphanum || c == '_' || c == '$'

/-- The characters spell an identifier. -/
def isIdentifierList : List Char → Bool
  | [] => false
  | c :: rest => isIdentifierHead c && rest.all isIdentifierTail

/-- The text is an identifier. -/
def isIdentifier (s : String) : Bool := isIdentifierList s.toList

theorem isIdentifier_eq_true_iff (s : String) :
    isIdentifier s = true ↔
      ∃ c rest, s.toList = c :: rest ∧ isIdentifierHead c = true ∧
        ∀ d ∈ rest, isIdentifierTail d = true := by
  unfold isIdentifier
  cases s.toList with
  | nil => simp [isIdentifierList]
  | cons c rest =>
    constructor
    · intro h
      exact ⟨c, rest, rfl, by simpa [isIdentifierList] using h⟩
    · rintro ⟨_, _, heads, h⟩
      obtain ⟨rfl, rfl⟩ := List.cons.inj heads
      simpa [isIdentifierList] using h

end Text

end ShapeCheck
