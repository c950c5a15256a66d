import ShapeCheck.Text.Blank

set_option autoImplicit false

/-! # JSON with comments

Configurations are written in JSON with comments and with commas behind last items. Both are taken
out of the text before it is read. Strings are copied as they are, whatever they contain.

A comment to the end of a line leaves the end of the line, a comment between `/*` and `*/` leaves
nothing. A comma goes if only blanks stand between it and a closing bracket.

Main facts: `stripComments_of_no_slash` and `dropTrailingCommas_of_no_comma` (a text without these
characters is not changed).
-/

namespace ShapeCheck

namespace Json

/-! ## Comments -/

/-- What the characters at a place belong to. -/
inductive Region
  | code
  | string
  /-- The character behind a backslash in a string. -/
  | escape
  | lineComment
  | blockComment
  deriving DecidableEq, Repr, Inhabited

/-- Takes comments out of a text that goes on in some region. -/
def stripComments : Region → List Char → List Char
  | _, [] => []
  | .code, '/' :: '/' :: rest => stripComments .lineComment rest
  | .code, '/' :: '*' :: rest => stripComments .blockComment rest
  | .code, '"' :: rest => '"' :: stripComments .string rest
  | .code, c :: rest => c :: stripComments .code rest
  | .string, '"' :: rest => '"' :: stripComments .code rest
  | .string, '\\' :: rest => '\\' :: stripComments .escape rest
  | .string, c :: rest => c :: stripComments .string rest
  | .escape, c :: rest => c :: stripComments .string rest
  -- the end of the line is not part of the comment
  | .lineComment, '\n' :: rest => '\n' :: stripComments .code rest
  | .lineComment, _ :: rest => stripComments .lineComment rest
  | .blockComment, '*' :: '/' :: rest => stripComments .code rest
  | .blockComment, _ :: rest => stripComments .blockComment rest

/-! ## Trailing commas -/

/-- The next character that is not blank closes an array or an object. -/
def closesNext (rest : List Char) : Bool :=
  match rest.dropWhile Text.isBlank with
  | c :: _ => c == ']' || c == '\x7d'
  | [] => false

/-- Takes commas in front of closing brackets out of a text without comments. -/
def dropTrailingCommas : Region → List Char → List Char
  | _, [] => []
  | .string, '"' :: rest => '"' :: dropTrailingCommas .code rest
  | .string, '\\' :: rest => '\\' :: dropTrailingCommas .escape rest
  | .string, c :: rest => c :: dropTrailingCommas .string rest
  | .escape, c :: rest => c :: dropTrailingCommas .string rest
  | _, '"' :: rest => '"' :: dropTrailingCommas .string rest
  | _, c :: rest =>
    if c = ',' ∧ closesNext rest then dropTrailingCommas .code rest
    else c :: dropTrailingCommas .code rest

/-- The text without comments and trailing commas. -/
def plainText (text : String) : String :=
  String.ofList (dropTrailingCommas .code (stripComments .code text.toList))

/-! ## Texts that are plain already -/

theorem stripComments_of_no_slash (text : List Char) (h : '/' ∉ text) (region : Region)
    (outside : region = .code ∨ region = .string ∨ region = .escape) :
    stripComments region text = text := by
  induction text generalizing region with
  | nil => simp [stripComments]
  | cons c rest ih =>
    have notSlash : c ≠ '/' := fun same => h (by simp [same])
    have ih := fun region => ih (fun inside => h (List.mem_cons_of_mem _ inside)) region
    rcases outside with rfl | rfl | rfl
    · unfold stripComments
      split <;> simp_all
    · unfold stripComments
      split <;> simp_all
    · simp [stripComments, ih]

theorem dropTrailingCommas_of_no_comma (text : List Char) (h : ',' ∉ text) (region : Region)
    (outside : region = .code ∨ region = .string ∨ region = .escape) :
    dropTrailingCommas region text = text := by
  induction text generalizing region with
  | nil => simp [dropTrailingCommas]
  | cons c rest ih =>
    have notComma : c ≠ ',' := fun same => h (by simp [same])
    have ih := fun region => ih (fun inside => h (List.mem_cons_of_mem _ inside)) region
    rcases outside with rfl | rfl | rfl
    · unfold dropTrailingCommas
      split <;> simp_all
    · unfold dropTrailingCommas
      split <;> simp_all
    · simp [dropTrailingCommas, ih]

end Json

end ShapeCheck
