import ShapeCheck.Proofs.Script.Identifiers
import ShapeCheck.Proofs.Script.Reading

set_option autoImplicit false

/-! # Expressions and their texts

An expression can be got back from its text, apart from what the text does not show: the text is read as the
tree of the expression, whatever identifiers the functions of predicates have been given.

Main facts: `Identifiers.isIdentifier_of` (functions have identifiers for names), `quoteScript_eq` (what
stands between the quotes of a string literal) and `read_text`.
-/

namespace ShapeCheck

namespace Script

/-! ## Functions of predicates -/

theorem isIdentifierTail_of_isStemChar {c : Char} (char : isStemChar c = true) :
    Text.isIdentifierTail c = true := by
  rw [Text.isIdentifierTail, show (c.isAlphanum || c == '_') = true from char, Bool.true_or]

namespace Identifiers

/-- An identifier that is tried starts with a mark that no reserved word has. -/
theorem isIdentifier_candidate (letters : Letters) (name : String) (n : Nat) :
    letters.IsIdentifier (candidate name n) := by
  obtain ⟨c, rest, spelled, chars⟩ := candidate_eq name n
  have tail : ∀ d ∈ c :: rest, Text.isIdentifierTail d = true :=
    fun d inside => isIdentifierTail_of_isStemChar (chars d inside)
  constructor
  · refine isWord_of_isIdentifier ((Text.isIdentifier_eq_true_iff _).2 ⟨'i', _, spelled, by decide, ?_⟩)
    simpa using ⟨by decide, by decide, List.forall_mem_cons.1 tail⟩
  · intro isReserved
    have marked : ['i', 's', '_'].isPrefixOf (candidate name n).toList = true := by
      rw [spelled]
      rfl
    have none : ∀ word ∈ reserved, ['i', 's', '_'].isPrefixOf word.toList = false := by decide
    rw [none _ isReserved] at marked
    cases marked

theorem isIdentifier_of (letters : Letters) (names : List String) (f : String) :
    letters.IsIdentifier ((empty.assignAll names).of f) := by
  obtain ⟨name, n, same⟩ := exists_of_eq_candidate names f
  rw [same]
  exact isIdentifier_candidate letters name n

end Identifiers

/-! ## String literals -/

/-- A literal does not depend on what is behind it. -/
theorem string?_append {cs text rest : List Char} (found : string? cs = some (text, rest)) (s : List Char) :
    string? (cs ++ s) = some (text, rest ++ s) := by
  fun_induction string? cs generalizing text rest with
  | case1 => cases found
  | case2 tail =>
    obtain ⟨rfl, rfl⟩ := Prod.mk.inj (Option.some.inj found)
    rfl
  | case3 a b c d tail ih =>
    obtain ⟨char, known, made⟩ := Option.bind_eq_some_iff.1 found
    obtain ⟨⟨inner, after⟩, here, same⟩ := Option.map_eq_some_iff.1 made
    obtain ⟨rfl, rfl⟩ := Prod.mk.inj same
    show string? ('\\' :: 'u' :: a :: b :: c :: d :: (tail ++ s)) = _
    rw [string?, known, Option.bind_some, ih here]
    rfl
  | case4 c tail _ ih =>
    obtain ⟨char, known, made⟩ := Option.bind_eq_some_iff.1 found
    obtain ⟨⟨inner, after⟩, here, same⟩ := Option.map_eq_some_iff.1 made
    obtain ⟨rfl, rfl⟩ := Prod.mk.inj same
    have other : c ≠ 'u' := by
      rintro rfl
      cases known
    show string? ('\\' :: c :: (tail ++ s)) = _
    rw [string?, known, Option.bind_some, ih here]
    · rfl
    · simp [other]
  | case5 => cases found
  | case6 c tail quote _ escape visible ih =>
    obtain ⟨⟨inner, after⟩, here, same⟩ := Option.map_eq_some_iff.1 found
    obtain ⟨rfl, rfl⟩ := Prod.mk.inj same
    -- a backslash at the end escapes nothing
    have notBackslash : c ≠ '\\' := by
      rintro rfl
      cases tail with
      | nil => cases here
      | cons d rest => exact escape d rest rfl rfl
    show string? (c :: (tail ++ s)) = _
    rw [string?, if_neg visible, ih here]
    · rfl
    · exact quote
    · exact fun _ _ _ _ _ backslash => absurd backslash notBackslash
    · exact fun _ _ backslash => absurd backslash notBackslash

/-- What is written for a character does not end a line. -/
theorem endsLine_of_mem_spellScript {c d : Char} (inside : d ∈ Text.spellScript c) : endsLine d = false := by
  have escape (e : Char) (plain : ∀ d ∈ ['\\', e], endsLine d = false) (inside : d ∈ ['\\', e]) :
      endsLine d = false := plain d inside
  unfold Text.spellScript at inside
  split at inside
  · exact escape '"' (by decide) inside
  split at inside
  · exact escape '\\' (by decide) inside
  split at inside
  · exact escape 'n' (by decide) inside
  split at inside
  · exact escape 'r' (by decide) inside
  split at inside
  · exact escape 't' (by decide) inside
  split at inside
  · rename_i numbered
    have digits : ∀ n ∈ numberedChars, ∀ d ∈ '\\' :: 'u' :: (Text.hex 4 n).map Char.toUpper,
        endsLine d = false := by decide +kernel
    exact digits _ (mem_numberedChars numbered) d inside
  · rename_i notLine notReturn _ shown
    rw [List.mem_singleton] at inside
    subst inside
    simp only [not_or] at shown
    simp [endsLine, notLine, notReturn, shown.1, shown.2.1]

/-- Between the quotes of a literal no line ends and no quote closes the literal; behind them the text has
been read. -/
theorem quoteScript_eq (text : String) : ∃ inner,
    (Text.quoteScript text).toList = '"' :: (inner ++ ['"']) ∧
      (∀ rest, string? (inner ++ '"' :: rest) = some (text.toList, rest)) ∧
      (∀ c ∈ inner, endsLine c = false) ∧
      ∀ before after, inner = before ++ '"' :: after → string? (before ++ ['"']) = none := by
  refine ⟨text.toList.flatMap Text.spellScript, quoteScript_toList text, string?_quoted text.toList,
    fun c inside => ?_, fun before after split => ?_⟩
  · obtain ⟨d, -, inside⟩ := List.mem_flatMap.1 inside
    exact endsLine_of_mem_spellScript inside
  · refine Option.eq_none_iff_forall_ne_some.2 fun ⟨other, rest⟩ found => ?_
    have early := string?_append found (after ++ ['"'])
    have late := string?_quoted text.toList []
    rw [split] at late
    have same : before ++ '"' :: after ++ ['"'] = before ++ ['"'] ++ (after ++ ['"']) := by simp
    rw [same, early] at late
    have lengths := congrArg List.length (Prod.mk.inj (Option.some.inj late)).2
    simp at lengths

/-! ## Texts of expressions -/

/-- The text of an expression, wherever it stands, is read as the tree of the expression, and string literals
as their texts. -/
theorem read_text (letters : Letters) (names : List String) (least : Strength) {e : Expr}
    (writable : IsWritable letters e) :
    read letters (text (Identifiers.empty.assignAll names).of (enclose least (strength e) (tokens e))) =
        some (tree (Identifiers.empty.assignAll names).of e) ∧
      ∀ s, ∃ inner, (Text.quoteScript s).toList = '"' :: (inner ++ ['"']) ∧
        (∀ rest, string? (inner ++ '"' :: rest) = some (s.toList, rest)) ∧
        (∀ c ∈ inner, endsLine c = false) ∧
        ∀ before after, inner = before ++ '"' :: after → string? (before ++ ['"']) = none := by
  have functions := Identifiers.isIdentifier_of letters names
  refine ⟨?_, quoteScript_eq⟩
  rw [read, lex_tokens (fun f => (functions f).1) least writable, Option.bind_some]
  have back := ((readsBack functions e writable).enclosed least) [] [] .nil
  rw [List.append_nil] at back
  exact back.finish

/-- A chain in an inlined call joins the chain around it, and a text with a quote is told from two. -/
theorem read_text_negated :
    let letters : Letters := ⟨fun _ => false, fun _ => false⟩
    let named : Expr := .oneOf (.member (.var "object") "name") ["a\"b", "-"]
    let e : Expr := .or [.not (.and [.call "A" (.var "object")]), .inlined "B" none (.var "object") named]
    IsWritable letters e ∧
      read letters (text (Identifiers.empty.assignAll ["A", "B"]).of (enclose .and (strength e) (tokens e))) =
        some (.binary .or
          (.binary .or (.unary .not (.apply (.identifier "is_A") (.identifier "object")))
            (.binary .strictEq (.dot (.identifier "object") "name") (.string "a\"b")))
          (.binary .strictEq (.dot (.identifier "object") "name") (.string "-"))) := by
  intro letters named e
  have writable : IsWritable letters e := by
    have object : letters.IsIdentifier "object" := ⟨rfl, by decide⟩
    constructor
    · simpa [e, named, Expr.varNames, Expr.nodes, Expr.nodesOfAll, Expr.varName?] using object
    · simp [e, named, Expr.nodes, Expr.nodesOfAll, receiver?, isNumber]
  have function : (Identifiers.empty.assignAll ["A", "B"]).of "A" = "is_A" := by decide
  have plain : Text.isIdentifier "name" = true := by decide
  refine ⟨writable, (read_text letters ["A", "B"] .and writable).1.trans ?_⟩
  simp [e, named, tree, links, allLinks, Tree.join, Tree.tests, Tree.access, function, plain]

end Script

end ShapeCheck
