import ShapeCheck.Proofs.Relaxed.Decorations

set_option autoImplicit false

/-! # Marked comments

A comment between `/*` and `*/` is a mark in the text, which stands for nothing or for white space. A text whose
marks are filled consists of lexemes where the marked text does: marks stand between lexemes, as white space does.
If marks are filled with white space, this is so whatever the text is. If they are filled with nothing, a mark may
stand within a word or numeral, or between two of them.

Main facts: `isMarked_of_woven`, `IsMarked.woven` and `IsMarked.not_divides`.
-/

namespace ShapeCheck

namespace Json

/-! ## Marks -/

/-- A text that goes on in some region, with a mark in place of every comment between `/*` and `*/`. -/
def markComments : Region → List Char → List (Option Char)
  | _, [] => []
  | .code, '/' :: '/' :: rest => markComments .lineComment rest
  | .code, '/' :: '*' :: rest => none :: markComments .blockComment rest
  | .code, '"' :: rest => some '"' :: markComments .string rest
  | .code, c :: rest => some c :: markComments .code rest
  | .string, '"' :: rest => some '"' :: markComments .code rest
  | .string, '\\' :: rest => some '\\' :: markComments .escape rest
  | .string, c :: rest => some c :: markComments .string rest
  | .escape, c :: rest => some c :: markComments .string rest
  | .lineComment, '\n' :: rest => some '\n' :: markComments .code rest
  | .lineComment, _ :: rest => markComments .lineComment rest
  | .blockComment, '*' :: '/' :: rest => markComments .code rest
  | .blockComment, _ :: rest => markComments .blockComment rest

/-- The characters of a marked text, with something in place of the marks. -/
def fill (filling : List Char) (marked : List (Option Char)) : List Char :=
  marked.flatMap fun mark => mark.elim filling fun c => [c]

/-- A mark stands within a word or numeral, or between two of them. -/
def Divides (marked : List (Option Char)) : Prop :=
  ∃ c d n, some c :: (List.replicate (n + 1) none ++ [some d]) <:+: marked ∧
    isScalarChar c = true ∧ isScalarChar d = true

section

variable (filling : List Char) (marked : List (Option Char))

@[simp] theorem fill_nil : fill filling [] = [] := rfl

@[simp] theorem fill_none : fill filling (none :: marked) = filling ++ fill filling marked := rfl

@[simp] theorem fill_some (c : Char) : fill filling (some c :: marked) = c :: fill filling marked := rfl

@[simp] theorem fill_map_some (part : List Char) :
    fill filling (part.map some ++ marked) = part ++ fill filling marked := by
  induction part with
  | nil => rfl
  | cons c part ih => rw [List.map_cons, List.cons_append, fill_some, ih, List.cons_append]

end

/-- Marks that stand for nothing leave nothing. -/
theorem fill_markComments (region : Region) (text : List Char) :
    fill [] (markComments region text) = stripComments region text := by
  fun_induction markComments region text <;> simp [stripComments, *]

theorem copiesStrings_markComments : CopiesStrings some markComments where
  nil region := by rw [markComments]
  quote rest := by rw [markComments]
  backslash rest := by rw [markComments]
  escaped c rest := by rw [markComments]
  char c rest noQuote noBackslash := by
    rw [markComments]
    · exact noQuote
    · exact noBackslash

/-- In strings there are no marks. -/
theorem copiesStrings_fill (filling : List Char) :
    CopiesStrings id fun region text => fill filling (markComments region text) where
  nil region := by rw [copiesStrings_markComments.nil, fill_nil]
  quote rest := by rw [copiesStrings_markComments.quote, fill_some]; rfl
  backslash rest := by rw [copiesStrings_markComments.backslash, fill_some]; rfl
  escaped c rest := by rw [copiesStrings_markComments.escaped, fill_some]; rfl
  char c rest noQuote noBackslash := by
    rw [copiesStrings_markComments.char c rest noQuote noBackslash, fill_some]; rfl

/-- A comment to the end of a line is followed by the end of the line, or by nothing. -/
theorem markComments_lineComment (text : List Char) : markComments .lineComment text = [] ∨
    ∃ rest, markComments .lineComment text = some '\n' :: markComments .code rest := by
  induction text with
  | nil => exact .inl (by rw [markComments])
  | cons c text ih =>
    by_cases ends : c = '\n'
    · exact .inr ⟨text, by rw [ends, markComments]⟩
    · rw [markComments]
      · exact ih
      · exact ends

/-- Behind a comment between `/*` and `*/` the text goes on. -/
theorem markComments_blockComment (text : List Char) :
    ∃ rest, markComments .blockComment text = markComments .code rest := by
  induction text with
  | nil => exact ⟨[], by rw [markComments, markComments]⟩
  | cons c text ih =>
    by_cases ends : ∃ rest, c = '*' ∧ text = '/' :: rest
    · obtain ⟨rest, rfl, rfl⟩ := ends
      exact ⟨rest, by rw [markComments]⟩
    · rw [markComments]
      · exact ih
      · exact fun rest star slash => ends ⟨rest, star, slash⟩

/-- What follows the first character or mark of a marked text: a string behind a quote, and else the text. -/
theorem exists_of_markComments_eq_cons {mark : Option Char} {text : List Char} {marked : List (Option Char)}
    (starts : markComments .code text = mark :: marked) :
    (mark = some '"' ∧ ∃ rest, marked = markComments .string rest) ∨
      (mark ≠ some '"' ∧ ∃ rest, marked = markComments .code rest) := by
  cases text with
  | nil =>
    rw [markComments] at starts
    cases starts
  | cons c text =>
    by_cases quote : c = '"'
    · rw [quote, markComments] at starts
      cases starts
      exact .inl ⟨rfl, text, rfl⟩
    right
    by_cases line : ∃ rest, c = '/' ∧ text = '/' :: rest
    · obtain ⟨rest, rfl, rfl⟩ := line
      rw [markComments] at starts
      rcases markComments_lineComment rest with ends | ⟨behind, ends⟩
      · rw [ends] at starts
        cases starts
      · rw [ends] at starts
        cases starts
        exact ⟨by decide, behind, rfl⟩
    by_cases block : ∃ rest, c = '/' ∧ text = '*' :: rest
    · obtain ⟨rest, rfl, rfl⟩ := block
      obtain ⟨behind, ends⟩ := markComments_blockComment rest
      rw [markComments, ends] at starts
      cases starts
      exact ⟨nofun, behind, rfl⟩
    · rw [markComments] at starts
      · cases starts
        exact ⟨by simpa using quote, text, rfl⟩
      · exact fun rest slash slash' => line ⟨rest, slash, slash'⟩
      · exact fun rest slash star => block ⟨rest, slash, star⟩
      · exact quote

/-! ## Lexemes between marks -/

/-- A marked text consists of lexemes, with marks and white space between them. -/
inductive IsMarked : List Lexeme → List (Option Char) → Prop
  | nil : IsMarked [] []
  | gap {lexemes : List Lexeme} {mark : Option Char} {marked : List (Option Char)}
    (blank : ∀ c ∈ mark, isSpace c = true) (rest : IsMarked lexemes marked) : IsMarked lexemes (mark :: marked)
  | lexeme {lexeme : Lexeme} {lexemes : List Lexeme} {marked : List (Option Char)}
    (rest : IsMarked lexemes marked) : IsMarked (lexeme :: lexemes) (lexeme.spelling.map some ++ marked)

theorem exists_of_fill_eq_cons {marked : List (Option Char)} {d : Char} {out : List Char}
    (same : fill [] marked = d :: out) : ∃ n behind, marked = List.replicate n none ++ some d :: behind := by
  induction marked with
  | nil => cases same
  | cons mark marked ih =>
    cases mark with
    | none =>
      obtain ⟨n, behind, rfl⟩ := ih same
      exact ⟨n + 1, behind, rfl⟩
    | some c =>
      rw [fill_some, List.cons.injEq] at same
      exact ⟨0, marked, by rw [same.1]; rfl⟩

theorem Divides.append {marked : List (Option Char)} (h : Divides marked) (before : List (Option Char)) :
    Divides (before ++ marked) := by
  obtain ⟨c, d, n, inside, scalars⟩ := h
  exact ⟨c, d, n, inside.trans (List.suffix_append before marked).isInfix, scalars⟩

/-- White space is not part of a word or numeral. -/
theorem isScalarChar_of_isSpace {c : Char} (h : isSpace c = true) : isScalarChar c = false :=
  isScalarChar_of_isBlank (isBlank_of_isSpace h)

section

variable {filling : List Char} {text : List Char} (spaces : IsSpaces filling)
include spaces

/-- Characters of a word or numeral stand next to each other in the marked text, if they do in the filled one and
no mark that stands for nothing divides them. -/
theorem exists_scalars {c : Char} {part out : List Char} (first : isScalarChar c = true)
    (all : ∀ d ∈ part, isScalarChar d = true)
    (whole : filling = [] → ¬ Divides (some c :: markComments .code text))
    (same : fill filling (markComments .code text) = part ++ out) :
    ∃ rest, markComments .code text = part.map some ++ markComments .code rest ∧
      fill filling (markComments .code rest) = out := by
  induction part generalizing c text with
  | nil => exact ⟨text, rfl, same⟩
  | cons d part ih =>
    obtain ⟨scalar, others⟩ := List.forall_mem_cons.1 all
    cases marked : markComments .code text with
    | nil =>
      rw [marked] at same
      cases same
    | cons mark marks =>
      rw [marked] at same whole
      cases mark with
      | none =>
        cases filling with
        | nil =>
          -- a comment stands between two characters of words and numerals
          refine absurd ?_ (whole rfl)
          rw [fill_none, List.nil_append] at same
          obtain ⟨n, behind, rfl⟩ := exists_of_fill_eq_cons same
          exact ⟨c, d, n, ⟨[], behind, by simp [List.replicate_succ]⟩, first, scalar⟩
        | cons space filling =>
          obtain ⟨rfl, -⟩ := List.cons.inj same
          rw [isScalarChar_of_isSpace (spaces _ List.mem_cons_self)] at scalar
          cases scalar
      | some e =>
        rw [fill_some] at same
        obtain ⟨rfl, later⟩ := List.cons.inj same
        rcases exists_of_markComments_eq_cons marked with ⟨quote, -⟩ | ⟨-, rest, rfl⟩
        · cases quote
          cases scalar
        · obtain ⟨rest', split, left⟩ :=
            ih scalar others (fun empty divides => whole empty (divides.append [_])) later
          exact ⟨rest', by rw [split]; rfl, left⟩

/-- What starts a lexeme in the filled text starts it in the marked text as well. -/
theorem exists_lexeme_marked {c : Char} {lexemes : List Lexeme} {marked : List (Option Char)}
    (starts : markComments .code text = some c :: marked) (visible : isSpace c = false)
    (whole : filling = [] → ¬ Divides (markComments .code text))
    (woven : Woven IsSpaces lexemes (fill filling (markComments .code text))) :
    ∃ lexeme others rest, lexemes = lexeme :: others ∧
      markComments .code text = lexeme.spelling.map some ++ markComments .code rest ∧
      Woven IsSpaces others (fill filling (markComments .code rest)) := by
  rw [starts, fill_some] at woven
  obtain ⟨lexeme, others, out, rfl, rfl, split, woven⟩ := woven.exists_of_cons visible
  rw [starts] at whole ⊢
  rcases exists_of_markComments_eq_cons starts with ⟨quote, rest, rfl⟩ | ⟨noQuote, rest, rfl⟩
  -- a string is copied up to its closing quote, and a mark is one character
  · have closes := lexeme.closesString (Option.some.inj quote)
    rw [← List.map_id lexeme.rest] at split
    obtain ⟨behind, rfl, rfl⟩ :=
      (copiesStrings_fill filling).exists_of_append Function.injective_id closes split
    refine ⟨lexeme, others, behind, rfl, ?_, woven⟩
    rw [copiesStrings_markComments.append closes]
    rfl
  · rcases lexeme.rest_eq_nil_or_scalar fun quote => noQuote (congrArg some quote) with mark | scalar
    · rw [mark] at split
      refine ⟨lexeme, others, rest, rfl, ?_, by rwa [split]⟩
      rw [Lexeme.spelling, mark]
      rfl
    · -- a word or numeral could be put together by comments that are left out
      obtain ⟨first, behindFirst⟩ := List.forall_mem_cons.1 scalar
      obtain ⟨behind, same, rfl⟩ := exists_scalars spaces first behindFirst whole split
      refine ⟨lexeme, others, behind, rfl, ?_, woven⟩
      rw [same]
      rfl

/-- A marked text consists of the lexemes of which the filled text consists. -/
theorem isMarked_of_woven {lexemes : List Lexeme} (whole : filling = [] → ¬ Divides (markComments .code text))
    (woven : Woven IsSpaces lexemes (fill filling (markComments .code text))) :
    IsMarked lexemes (markComments .code text) := by
  -- the induction is on what is left of the marked text
  induction size : (markComments .code text).length using Nat.strong_induction_on
    generalizing lexemes text with
  | _ n ih =>
    subst size
    have later (before : List (Option Char)) {rest : List Char} {lexemes : List Lexeme}
        (next : markComments .code text = before ++ markComments .code rest) (some : before ≠ [])
        (woven : Woven IsSpaces lexemes (fill filling (markComments .code rest))) :
        IsMarked lexemes (markComments .code rest) := by
      have shorter := List.length_pos_of_ne_nil some
      refine ih _ ?_ (fun empty divides => whole empty (next ▸ divides.append before)) woven rfl
      rw [next, List.length_append]
      omega
    cases marked : markComments .code text with
    | nil =>
      rw [marked, fill_nil] at woven
      rw [woven.eq_nil]
      exact .nil
    | cons mark marks =>
      by_cases lexeme : ∃ c, mark = some c ∧ isSpace c = false
      · obtain ⟨c, rfl, visible⟩ := lexeme
        obtain ⟨lexeme, others, rest, rfl, next, woven⟩ :=
          exists_lexeme_marked spaces marked visible whole woven
        rw [← marked, next]
        exact .lexeme (later _ next (List.cons_ne_nil _ _) woven)
      have blank : ∀ c ∈ mark, isSpace c = true := by
        rintro c rfl
        rw [← Bool.not_eq_false]
        exact fun visible => lexeme ⟨c, rfl, visible⟩
      rcases exists_of_markComments_eq_cons marked with ⟨rfl, -⟩ | ⟨-, rest, rfl⟩
      · exact absurd ⟨'"', rfl, rfl⟩ lexeme
      refine .gap blank (later [mark] marked (List.cons_ne_nil _ _) ?_)
      rw [marked] at woven
      cases mark with
      | none => exact woven.of_spaces spaces
      | some c => exact woven.of_space (blank c rfl)

end

namespace IsMarked

variable {lexemes : List Lexeme} {marked : List (Option Char)}

/-- The filled text consists of the same lexemes. -/
theorem woven {filling : List Char} (spaces : IsSpaces filling) (h : IsMarked lexemes marked) :
    Woven IsSpaces lexemes (fill filling marked) := by
  induction h with
  | nil => exact .nil nofun
  | @gap lexemes mark marked blank _ ih =>
    cases mark with
    | none => exact ih.spaces spaces
    | some c => exact ih.space (blank c rfl)
  | lexeme _ ih =>
    rw [fill_map_some]
    exact ih.lexeme

/-- Behind marks a character that is no white space starts the first lexeme. -/
theorem exists_next {n : Nat} {d : Char} (h : IsMarked lexemes marked)
    (starts : List.replicate n none ++ [some d] <+: marked) (visible : isSpace d = false) :
    ∃ lexeme others, lexemes = lexeme :: others ∧ lexeme.first = d := by
  induction h generalizing n with
  | nil => simp at starts
  | gap blank _ ih =>
    cases n with
    | zero =>
      obtain ⟨rfl, -⟩ := List.cons_prefix_cons.1 starts
      rw [blank d rfl] at visible
      cases visible
    | succ n => exact ih (List.cons_prefix_cons.1 starts).2
  | @lexeme lexeme lexemes _ _ _ =>
    cases n with
    | zero =>
      obtain ⟨same, -⟩ := List.cons_prefix_cons.1 starts
      exact ⟨lexeme, lexemes, rfl, (Option.some.inj same).symm⟩
    | succ n => cases (List.cons_prefix_cons.1 starts).1

end IsMarked

/-- A lexeme with a character of a word or numeral is a value. -/
theorem Lexeme.isValue_of_scalar (lexeme : Lexeme) {c : Char} (inside : c ∈ lexeme.spelling)
    (scalar : isScalarChar c = true) :
    lexeme.token.endsValue = true ∧ lexeme.token.startsValue = true := by
  have spelled := lexeme.isSpelled
  obtain ⟨d, part, token, reads, whole⟩ := lexeme
  cases spelled with
  | mark listed =>
    rw [List.mem_singleton.1 inside] at scalar
    have all : ∀ mark ∈ marks, isScalarChar mark.1 = false := by decide
    rw [show isScalarChar d = false from all (d, token) listed] at scalar
    cases scalar
  | string _ _ => exact ⟨rfl, rfl⟩
  | scalar _ noMark =>
    cases token with
    | null | bool _ | number _ | string _ => exact ⟨rfl, rfl⟩
    | openArray | closeArray | openObject | closeObject | comma | colon => cases noMark
    | brokenString _ | broken _ => cases whole

/-- A mark that divides words or numerals does so behind a run of characters or at its end. -/
theorem Divides.of_append {part : List Char} {marked : List (Option Char)}
    (h : Divides (part.map some ++ marked)) : Divides marked ∨
      ∃ c d n, c ∈ part ∧ isScalarChar c = true ∧ isScalarChar d = true ∧
        List.replicate (n + 1) none ++ [some d] <+: marked := by
  induction part with
  | nil => exact .inl h
  | cons e part ih =>
    obtain ⟨c, d, n, inside, scalars⟩ := h
    rcases List.infix_cons_iff.1 inside with first | later
    · obtain ⟨same, behind⟩ := List.cons_prefix_cons.1 first
      cases part with
      | nil => exact .inr ⟨c, d, n, List.mem_singleton.2 (Option.some.inj same), scalars.1, scalars.2, behind⟩
      | cons f part => cases (List.cons_prefix_cons.1 behind).1
    · refine (ih ⟨c, d, n, later, scalars⟩).imp_right ?_
      rintro ⟨c, d, n, inside, scalars⟩
      exact ⟨c, d, n, List.mem_cons_of_mem e inside, scalars⟩

/-- Where no value stands behind another one, no mark divides words or numerals. -/
theorem IsMarked.not_divides {lexemes : List Lexeme} {marked : List (Option Char)} (h : IsMarked lexemes marked)
    (apart : Apart (lexemes.map Lexeme.token)) : ¬ Divides marked := by
  induction h with
  | nil =>
    rintro ⟨c, d, n, inside, -⟩
    simp at inside
  | gap blank _ ih =>
    rintro ⟨c, d, n, inside, scalars⟩
    rcases List.infix_cons_iff.1 inside with first | later
    · have space := blank c (List.cons_prefix_cons.1 first).1.symm
      rw [isScalarChar_of_isSpace space] at scalars
      cases scalars.1
    · exact ih apart ⟨c, d, n, later, scalars⟩
  | @lexeme lexeme lexemes marked rest ih =>
    intro divides
    obtain ⟨follows, apart⟩ := List.isChain_cons.1 apart
    rcases divides.of_append with later | ⟨c, d, n, inside, scalar, scalar', starts⟩
    · exact ih apart later
    · -- the characters at both ends of the marks belong to values
      have visible : isSpace d = false := by
        by_contra blank
        rw [isScalarChar_of_isSpace (Bool.not_eq_false _ ▸ blank)] at scalar'
        cases scalar'
      obtain ⟨next, others, rfl, rfl⟩ := rest.exists_next starts visible
      have value := (lexeme.isValue_of_scalar inside scalar).1
      have noValue := follows next.token rfl value
      rw [(next.isValue_of_scalar List.mem_cons_self scalar').2] at noValue
      cases noValue

end Json

end ShapeCheck
