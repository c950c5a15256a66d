import ShapeCheck.Proofs.Naming.Quotation

set_option autoImplicit false

/-! # Texts between separators

A text is closed if its brackets match and its quotations end, and if outside of brackets and
quotations it has none of some characters, its stops. A closed text can be told apart from what
follows it as soon as that starts with a stop or a closing bracket. So a list of closed texts can be
read off the text in which they are joined by a separator, if a stop is part of the separator.

Main facts: `Text.Closed.split` and `Text.intercalate_injective`.
-/

namespace ShapeCheck

namespace Text

/-- An opening bracket and the one that closes it. -/
def brackets : List (Char × Char) := [('<', '>'), ('[', ']'), ('\x7b', '\x7d')]

/-- The character opens or closes a bracket or a quotation. -/
def isMark (c : Char) : Bool :=
  c == '"' || brackets.any fun pair => c == pair.1 || c == pair.2

/-- Brackets match, quotations end, and outside of them is none of the stops. -/
inductive Closed : List Char → List Char → Prop
  | nil {stops : List Char} : Closed stops []
  | char {stops rest : List Char} {c : Char} :
      isMark c = false → c ∉ stops → Closed stops rest → Closed stops (c :: rest)
  | quoted {stops rest : List Char} (s : String) :
      Closed stops rest → Closed stops ((quote s).toList ++ rest)
  | bracketed {stops inner rest : List Char} {pair : Char × Char} :
      pair ∈ brackets → Closed [] inner → Closed stops rest →
        Closed stops (pair.1 :: (inner ++ pair.2 :: rest))

/-! ## What starts and ends a text -/

/-- What ends a closed text: a stop, or a bracket that was opened in front of it. -/
def Ends (stops : List Char) (c : Char) : Prop :=
  (c ∈ stops ∧ isMark c = false) ∨ ∃ pair ∈ brackets, c = pair.2

variable {stops : List Char} {c : Char}

theorem isMark_bracket {pair : Char × Char} (h : pair ∈ brackets) :
    isMark pair.1 = true ∧ isMark pair.2 = true ∧ pair.1 ≠ '"' ∧ pair.2 ≠ '"' := by
  revert pair
  decide

theorem opening_ne_closing {p q : Char × Char} (h : p ∈ brackets) (h' : q ∈ brackets) :
    p.1 ≠ q.2 := by
  have all : ∀ p ∈ brackets, ∀ q ∈ brackets, p.1 ≠ q.2 := by decide
  exact all p h q h'

theorem opening_injective {p q : Char × Char} (h : p ∈ brackets) (h' : q ∈ brackets)
    (same : p.1 = q.1) : p = q := by
  have all : ∀ p ∈ brackets, ∀ q ∈ brackets, p.1 = q.1 → p = q := by decide
  exact all p h q h' same

theorem Ends.ne_quote (h : Ends stops c) : c ≠ '"' := by
  rintro rfl
  rcases h with ⟨-, plain⟩ | ⟨pair, listed, same⟩
  · revert plain
    decide
  · exact (isMark_bracket listed).2.2.2 same.symm

theorem Ends.ne_opening (h : Ends stops c) {pair : Char × Char} (listed : pair ∈ brackets) :
    c ≠ pair.1 := by
  rintro rfl
  rcases h with ⟨-, plain⟩ | ⟨other, listed', same⟩
  · rw [(isMark_bracket listed).1] at plain
    cases plain
  · exact opening_ne_closing listed listed' same

theorem Ends.not_plain (h : Ends stops c) (plain : isMark c = false) (free : c ∉ stops) : False := by
  rcases h with ⟨inside, -⟩ | ⟨pair, listed, rfl⟩
  · exact free inside
  · rw [(isMark_bracket listed).2.1] at plain
    cases plain

theorem toList_quote_append (s : String) (rest : List Char) :
    ∃ tail, (quote s).toList ++ rest = '"' :: tail := by
  rw [toList_quote]
  exact ⟨_, rfl⟩

/-! ## Closed texts -/

namespace Closed

theorem mono {stops' text : List Char} (h : Closed stops text) (le : ∀ c ∈ stops', c ∈ stops) :
    Closed stops' text := by
  induction h with
  | nil => exact .nil
  | char other free _ ih => exact .char other (fun inside => free (le _ inside)) (ih le)
  | quoted s _ ih => exact .quoted s (ih le)
  | bracketed listed inner _ _ ih => exact .bracketed listed inner (ih le)

theorem append {text text' : List Char} (h : Closed stops text) (h' : Closed stops text') :
    Closed stops (text ++ text') := by
  induction h with
  | nil => exact h'
  | char other free _ ih => exact .char other free (ih h')
  | quoted s _ ih =>
    rw [List.append_assoc]
    exact .quoted s (ih h')
  | bracketed listed inner _ _ ih =>
    rw [List.cons_append, List.append_assoc, List.cons_append]
    exact .bracketed listed inner (ih h')

theorem of_chars {text : List Char} (h : ∀ c ∈ text, isMark c = false ∧ c ∉ stops) :
    Closed stops text := by
  induction text with
  | nil => exact .nil
  | cons c rest ih =>
    obtain ⟨other, free⟩ := h c (by simp)
    exact .char other free (ih fun d inside => h d (by simp [inside]))

theorem quotation (s : String) : Closed stops (quote s).toList := by
  have h : Closed stops ((quote s).toList ++ []) := .quoted s .nil
  rwa [List.append_nil] at h

theorem bracket {pair : Char × Char} (listed : pair ∈ brackets) {inner : List Char}
    (h : Closed [] inner) : Closed stops (pair.1 :: (inner ++ [pair.2])) :=
  .bracketed listed h .nil

/-! ## Where a text ends -/

variable {text tail rest : List Char} {d : Char}

theorem eq_nil_of_ends (h : Closed stops text) (ends : Ends stops c)
    (same : c :: tail = text ++ d :: rest) : text = [] := by
  cases h with
  | nil => rfl
  | char other free =>
    obtain ⟨rfl, -⟩ := List.cons.inj same
    exact (ends.not_plain other free).elim
  | quoted s =>
    obtain ⟨tail', quotation⟩ := toList_quote_append s (_ ++ d :: rest)
    rw [List.append_assoc, quotation] at same
    exact absurd (List.cons.inj same).1 ends.ne_quote
  | bracketed listed => exact absurd (List.cons.inj same).1 (ends.ne_opening listed)

theorem eq_cons_of_plain (h : Closed stops text) (ends : Ends stops d) (other : isMark c = false)
    (free : c ∉ stops) (same : c :: tail = text ++ d :: rest) :
    ∃ text', text = c :: text' ∧ Closed stops text' ∧ tail = text' ++ d :: rest := by
  cases h with
  | nil =>
    obtain ⟨rfl, -⟩ := List.cons.inj same
    exact (ends.not_plain other free).elim
  | char _ _ below =>
    obtain ⟨rfl, rest⟩ := List.cons.inj same
    exact ⟨_, rfl, below, rest⟩
  | quoted s =>
    obtain ⟨tail', quotation⟩ := toList_quote_append s (_ ++ d :: rest)
    rw [List.append_assoc, quotation] at same
    rw [(List.cons.inj same).1] at other
    cases other
  | bracketed listed =>
    rw [(List.cons.inj same).1, (isMark_bracket listed).1] at other
    cases other

theorem eq_quote_append (h : Closed stops text) (ends : Ends stops d) {s : String}
    (same : (quote s).toList ++ tail = text ++ d :: rest) :
    ∃ text', text = (quote s).toList ++ text' ∧ Closed stops text' ∧ tail = text' ++ d :: rest := by
  obtain ⟨tail', quotation⟩ := toList_quote_append s tail
  cases h with
  | nil =>
    rw [quotation] at same
    exact absurd (List.cons.inj same).1.symm ends.ne_quote
  | char other free =>
    rw [quotation] at same
    rw [← (List.cons.inj same).1] at other
    cases other
  | quoted s' below =>
    rw [List.append_assoc] at same
    obtain ⟨rfl, rest⟩ := prefixFree_quote s s' _ _ same
    exact ⟨_, rfl, below, rest⟩
  | bracketed listed =>
    rw [quotation] at same
    exact absurd (List.cons.inj same).1.symm (isMark_bracket listed).2.2.1

theorem eq_bracket_append (h : Closed stops text) (ends : Ends stops d) {pair : Char × Char}
    (listed : pair ∈ brackets) (same : pair.1 :: tail = text ++ d :: rest) :
    ∃ inner text', text = pair.1 :: (inner ++ pair.2 :: text') ∧ Closed [] inner ∧
      Closed stops text' ∧ tail = inner ++ pair.2 :: (text' ++ d :: rest) := by
  cases h with
  | nil => exact absurd (List.cons.inj same).1.symm (ends.ne_opening listed)
  | char other free =>
    rw [← (List.cons.inj same).1, (isMark_bracket listed).1] at other
    cases other
  | quoted s =>
    obtain ⟨tail', quotation⟩ := toList_quote_append s (_ ++ d :: rest)
    rw [List.append_assoc, quotation] at same
    exact absurd (List.cons.inj same).1 (isMark_bracket listed).2.2.1
  | bracketed listed' inside below =>
    obtain ⟨first, same⟩ := List.cons.inj same
    obtain rfl := opening_injective listed listed' first
    exact ⟨_, _, rfl, inside, below, by simpa using same⟩

/-- Closed texts end where a stop or a closing bracket is. -/
theorem split {text' rest' : List Char} (h : Closed stops text) (h' : Closed stops text')
    (ends : Ends stops c) (ends' : Ends stops d) (same : text ++ c :: rest = text' ++ d :: rest') :
    text = text' ∧ c = d ∧ rest = rest' := by
  induction h generalizing text' c d rest rest' with
  | nil =>
    obtain rfl := h'.eq_nil_of_ends ends same
    obtain ⟨rfl, rfl⟩ := List.cons.inj same
    exact ⟨rfl, rfl, rfl⟩
  | char other free _ ih =>
    obtain ⟨below, rfl, closed, same⟩ := h'.eq_cons_of_plain ends' other free same
    obtain ⟨rfl, rest⟩ := ih closed ends ends' same
    exact ⟨rfl, rest⟩
  | quoted s _ ih =>
    rw [List.append_assoc] at same
    obtain ⟨below, text_eq, closed, same⟩ := h'.eq_quote_append ends' same
    obtain ⟨below_eq, rest⟩ := ih closed ends ends' same
    exact ⟨by rw [text_eq, below_eq], rest⟩
  | bracketed listed _ _ ihInner ih =>
    rw [List.cons_append, List.append_assoc, List.cons_append] at same
    obtain ⟨inner, below, rfl, inside, closed, same⟩ := h'.eq_bracket_append ends' listed same
    obtain ⟨rfl, -, same⟩ := ihInner inside (.inr ⟨_, listed, rfl⟩) (.inr ⟨_, listed, rfl⟩) same
    obtain ⟨rfl, rest⟩ := ih closed ends ends' same
    exact ⟨rfl, rest⟩

/-- A closed text can be told apart from what stands behind it. -/
theorem append_injective {text' rest' : List Char} (h : Closed stops text) (h' : Closed stops text')
    (ends : ∀ c tail, rest = c :: tail → Ends stops c)
    (ends' : ∀ c tail, rest' = c :: tail → Ends stops c) (same : text ++ rest = text' ++ rest') :
    text = text' ∧ rest = rest' := by
  -- a bracket behind both makes sure that something follows
  have closing : Ends stops '>' := .inr ⟨('<', '>'), by decide, rfl⟩
  have longer : text ++ (rest ++ ['>']) = text' ++ (rest' ++ ['>']) := by
    rw [← List.append_assoc, ← List.append_assoc, same]
  have start {rest : List Char} (ends : ∀ c tail, rest = c :: tail → Ends stops c) :
      ∃ c tail, rest ++ ['>'] = c :: tail ∧ Ends stops c := by
    cases rest with
    | nil => exact ⟨_, _, rfl, closing⟩
    | cons c tail => exact ⟨_, _, rfl, ends c tail rfl⟩
  obtain ⟨c, tail, chars, ends⟩ := start ends
  obtain ⟨c', tail', chars', ends'⟩ := start ends'
  rw [chars, chars'] at longer
  obtain ⟨texts, rfl, tails⟩ := h.split h' ends ends' longer
  have rests : rest ++ ['>'] = rest' ++ ['>'] := by rw [chars, chars', tails]
  exact ⟨texts, (List.append_left_inj _).1 rests⟩

end Closed

/-! ## Joined texts -/

/-- A separator with a stop in it, and what stands before and behind the stop. -/
structure IsSeparator (stops : List Char) (separator : String) : Prop where
  parts : ∃ before c behind, separator.toList = before ++ c :: behind ∧ Closed stops before ∧
    c ∈ stops ∧ isMark c = false

/-- A text that can be joined with others. -/
def IsPiece (stops : List Char) (text : String) : Prop := text ≠ "" ∧ Closed stops text.toList

variable {separator : String}

theorem intercalate_ne_empty {text : String} (h : text ≠ "") (rest : List String) :
    separator.intercalate (text :: rest) ≠ "" := by
  cases rest with
  | nil => simpa using h
  | cons next rest =>
    rw [String.intercalate_cons_cons]
    simp [String.append_eq_empty_iff, h]

/-- A single piece is not joined from several. -/
theorem ne_intercalate (sep : IsSeparator stops separator) {text text' next : String}
    (h : Closed stops text.toList) (h' : Closed stops text'.toList) (rest : List String) :
    text ≠ separator.intercalate (text' :: next :: rest) := by
  intro same
  obtain ⟨before, c, behind, parts, closed, inside, plain⟩ := sep.parts
  have closing : Ends stops '>' := .inr ⟨('<', '>'), by decide, rfl⟩
  have chars : text.toList ++ '>' :: [] = (text'.toList ++ before) ++ c ::
      (behind ++ (separator.intercalate (next :: rest)).toList ++ ['>']) := by
    rw [same, String.intercalate_cons_cons]
    simp [parts]
  obtain ⟨-, rfl, -⟩ := h.split (h'.append closed) closing (.inl ⟨inside, plain⟩) chars
  revert plain
  decide

/-- The pieces of a joined text can be read off it. -/
theorem intercalate_injective (sep : IsSeparator stops separator) {texts texts' : List String}
    (h : ∀ text ∈ texts, IsPiece stops text) (h' : ∀ text ∈ texts', IsPiece stops text)
    (same : separator.intercalate texts = separator.intercalate texts') : texts = texts' := by
  induction texts generalizing texts' with
  | nil =>
    cases texts' with
    | nil => rfl
    | cons text' rest' => exact absurd same.symm (intercalate_ne_empty (h' text' (by simp)).1 rest')
  | cons text rest ih =>
    have piece := h text (by simp)
    cases texts' with
    | nil => exact absurd same (intercalate_ne_empty piece.1 rest)
    | cons text' rest' =>
      have piece' := h' text' (by simp)
      cases rest with
      | nil =>
        cases rest' with
        | nil => simpa using same
        | cons next' rest' =>
          rw [String.intercalate_singleton] at same
          exact absurd same (ne_intercalate sep piece.2 piece'.2 rest')
      | cons next rest =>
        cases rest' with
        | nil =>
          rw [String.intercalate_singleton] at same
          exact absurd same.symm (ne_intercalate sep piece'.2 piece.2 rest)
        | cons next' rest' =>
          obtain ⟨before, c, behind, parts, closed, inside, plain⟩ := sep.parts
          have ends : Ends stops c := .inl ⟨inside, plain⟩
          have chars := congrArg String.toList same
          rw [String.intercalate_cons_cons, String.intercalate_cons_cons] at chars
          simp only [String.toList_append, parts, List.append_assoc, List.cons_append] at chars
          rw [← List.append_assoc, ← List.append_assoc text'.toList] at chars
          obtain ⟨first, -, others⟩ := (piece.2.append closed).split (piece'.2.append closed)
            ends ends chars
          rw [List.append_cancel_right_eq, String.toList_inj] at first
          rw [List.append_cancel_left_eq, String.toList_inj] at others
          rw [first, ih (fun t inside => h t (by simp [inside]))
            (fun t inside => h' t (by simp [inside])) others]

theorem closed_intercalate {stops' : List Char} (sep : Closed stops' separator.toList)
    {texts : List String} (h : ∀ text ∈ texts, Closed stops' text.toList) :
    Closed stops' (separator.intercalate texts).toList := by
  induction texts with
  | nil => simpa using Closed.nil
  | cons text rest ih =>
    cases rest with
    | nil => simpa using h text
    | cons next rest =>
      rw [String.intercalate_cons_cons]
      simp only [String.toList_append]
      exact ((h text (by simp)).append sep).append (ih fun t inside => h t (by simp [inside]))

end Text

end ShapeCheck
