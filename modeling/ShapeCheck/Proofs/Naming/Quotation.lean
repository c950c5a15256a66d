import ShapeCheck.Compile.Naming

set_option autoImplicit false

/-! # Names that spell other names

The name of a check for superfluous keys lists the quoted keys. A quotation ends at its closing quote,
whatever stands behind it, since a quote inside of a text is spelled with a backslash in front; so the
name determines the keys. The name of an optional part determines the name of the part.

Main facts: `Text.prefixFree_quote` (quotations can be told apart in front of any text) and
`exactKeysName_injective`.
-/

namespace ShapeCheck

/-- What holds of the characters of a list is decided along the list. Another instance that decides
it goes through all characters that there are. -/
instance decidableForallMemChar {p : Char → Prop} [DecidablePred p] (chars : List Char) :
    Decidable (∀ c ∈ chars, p c) :=
  List.decidableBAll p chars

namespace Text

/-! ## Prefix-free spellings -/

/-- Whatever stands behind a spelling, it tells what was spelled and where the rest begins. -/
def PrefixFree {α : Type} (spell : α → List Char) : Prop :=
  ∀ (a b : α) (s t : List Char), spell a ++ s = spell b ++ t → a = b ∧ s = t

/-- A list of spellings can be told apart by the mark at its end, if no spelling starts with it. -/
theorem PrefixFree.flatMap {α : Type} {spell : α → List Char} (h : PrefixFree spell) {mark : Char}
    (apart : ∀ a s t, spell a ++ s ≠ mark :: t) :
    PrefixFree fun as : List α => as.flatMap spell ++ [mark] := by
  intro as
  induction as with
  | nil =>
    intro bs s t same
    cases bs with
    | nil => exact ⟨rfl, by simpa using same⟩
    | cons b bs =>
      simp only [List.flatMap_nil, List.flatMap_cons, List.append_assoc] at same
      exact absurd same.symm (apart b _ _)
  | cons a as ih =>
    intro bs s t same
    cases bs with
    | nil =>
      simp only [List.flatMap_nil, List.flatMap_cons, List.append_assoc] at same
      exact absurd same (apart a _ _)
    | cons b bs =>
      simp only [List.flatMap_cons, List.append_assoc] at same
      obtain ⟨rfl, rest⟩ := h a b _ _ same
      obtain ⟨rfl, rfl⟩ := ih bs s t (by simpa using rest)
      exact ⟨rfl, rfl⟩

/-! ## JSON quotation -/

/-- The characters that are spelled with a letter, and the letter. -/
def jsonEscapes : List (Char × Char) :=
  [('"', '"'), ('\\', '\\'), ('\n', 'n'), ('\r', 'r'), ('\t', 't'), ('\x08', 'b'), ('\x0c', 'f')]

theorem jsonEscapes_injective :
    ∀ p ∈ jsonEscapes, ∀ q ∈ jsonEscapes, p.2 = q.2 → p.1 = q.1 := by decide

theorem jsonEscapes_ne_u : ∀ p ∈ jsonEscapes, p.2 ≠ 'u' := by decide

theorem length_hex_control : ∀ n < 0x20, (hex 4 n).length = 4 := by decide

/-- The number that hexadecimal digits spell. -/
def ofHexDigits (digits : List Char) : Nat :=
  digits.foldl (fun value c => 16 * value + (c.toNat - if c.isDigit then 48 else 87)) 0

theorem ofHexDigits_control : ∀ n < 0x20, ofHexDigits (hex 4 n) = n := by decide

theorem hex_control_injective {m n : Nat} (hm : m < 0x20) (hn : n < 0x20)
    (same : hex 4 m = hex 4 n) : m = n := by
  rw [← ofHexDigits_control m hm, same, ofHexDigits_control n hn]

theorem spellJson_of_escape : ∀ p ∈ jsonEscapes, spellJson p.1 = ['\\', p.2] := by decide

/-- A character is spelled with a letter, with its number, or as it is. -/
theorem spellJson_cases (c : Char) :
    (∃ d, (c, d) ∈ jsonEscapes ∧ spellJson c = ['\\', d]) ∨
      (c.toNat < 0x20 ∧ spellJson c = '\\' :: 'u' :: hex 4 c.toNat) ∨
        (c ≠ '"' ∧ c ≠ '\\' ∧ spellJson c = [c]) := by
  by_cases listed : c ∈ jsonEscapes.map Prod.fst
  · obtain ⟨⟨_, d⟩, inside, rfl⟩ := List.mem_map.1 listed
    exact .inl ⟨d, inside, spellJson_of_escape _ inside⟩
  · simp only [jsonEscapes, List.map_cons, List.map_nil, List.mem_cons, List.not_mem_nil, not_or,
      not_false_eq_true, and_true] at listed
    obtain ⟨quote, backslash, newline, feed, tab, back, form⟩ := listed
    by_cases control : c.toNat < 0x20
    · refine .inr (.inl ⟨control, ?_⟩)
      rw [spellJson, if_neg quote, if_neg backslash, if_neg newline, if_neg feed, if_neg tab,
        if_neg back, if_neg form, if_pos control]
    · refine .inr (.inr ⟨quote, backslash, ?_⟩)
      rw [spellJson, if_neg quote, if_neg backslash, if_neg newline, if_neg feed, if_neg tab,
        if_neg back, if_neg form, if_neg control]

theorem prefixFree_spellJson : PrefixFree spellJson := by
  intro c c' s t same
  rcases spellJson_cases c with ⟨d, listed, spelled⟩ | ⟨control, spelled⟩ | ⟨-, other, spelled⟩ <;>
    rcases spellJson_cases c' with
      ⟨d', listed', spelled'⟩ | ⟨control', spelled'⟩ | ⟨-, other', spelled'⟩ <;>
    rw [spelled, spelled'] at same <;>
    simp only [List.cons_append, List.nil_append, List.cons.injEq, true_and] at same
  · exact ⟨jsonEscapes_injective _ listed _ listed' same.1, same.2⟩
  · exact absurd same.1 (jsonEscapes_ne_u _ listed)
  · exact absurd same.1.symm other'
  · exact absurd same.1.symm (jsonEscapes_ne_u _ listed')
  · have lengths : (hex 4 c.toNat).length = (hex 4 c'.toNat).length := by
      rw [length_hex_control _ control, length_hex_control _ control']
    obtain ⟨digits, rest⟩ := List.append_inj same lengths
    exact ⟨Char.toNat_inj.1 (hex_control_injective control control' digits), rest⟩
  · exact absurd same.1.symm other'
  · exact absurd same.1 other
  · exact absurd same.1 other
  · exact same

theorem spellJson_append_ne (c : Char) (s t : List Char) : spellJson c ++ s ≠ '"' :: t := by
  intro same
  rcases spellJson_cases c with ⟨d, _, spelled⟩ | ⟨_, spelled⟩ | ⟨other, _, spelled⟩ <;>
    rw [spelled] at same <;>
    simp only [List.cons_append, List.nil_append, List.cons.injEq] at same
  · exact absurd same.1 (by decide)
  · exact absurd same.1 (by decide)
  · exact absurd same.1 other

theorem toList_quote (s : String) :
    (quote s).toList = '"' :: (s.toList.flatMap spellJson ++ ['"']) := by
  simp [quote, quoteWith]

theorem prefixFree_quote : PrefixFree fun s => (quote s).toList := by
  intro s s' r r' same
  simp only [toList_quote, List.cons_append, List.cons.injEq, true_and] at same
  obtain ⟨texts, rest⟩ := prefixFree_spellJson.flatMap spellJson_append_ne _ _ _ _ same
  exact ⟨String.toList_inj.1 texts, rest⟩

theorem quote_append_ne (s : String) {c : Char} (h : c ≠ '"') (r t : List Char) :
    (quote s).toList ++ r ≠ c :: t := by
  rw [toList_quote]
  intro same
  exact h (List.cons.inj same).1.symm

/-! ## Lists of quotations -/

/-- A quoted key behind a separator. -/
def spellNext (key : String) : List Char := ", ".toList ++ (quote key).toList

theorem prefixFree_spellNext : PrefixFree spellNext := by
  intro key key' s t same
  simp only [spellNext, List.append_assoc, List.append_cancel_left_eq] at same
  exact prefixFree_quote key key' s t same

theorem toList_intercalate_quote (key : String) (rest : List String) :
    (", ".intercalate ((key :: rest).map quote)).toList =
      (quote key).toList ++ rest.flatMap spellNext := by
  induction rest generalizing key with
  | nil => simp
  | cons next rest ih =>
    rw [List.map_cons, List.map_cons, String.intercalate_cons_cons, ← List.map_cons]
    rw [String.toList_append, String.toList_append, ih next, List.flatMap_cons, spellNext]
    simp only [List.append_assoc]

/-- Quoted keys with their separators, up to a closing brace. -/
theorem prefixFree_quotedKeys :
    PrefixFree fun keys : List String =>
      (", ".intercalate (keys.map quote)).toList ++ ['\x7d'] := by
  have others : PrefixFree fun keys : List String => keys.flatMap spellNext ++ ['\x7d'] :=
    prefixFree_spellNext.flatMap fun key s t same => by simp [spellNext] at same
  intro keys keys' s t same
  cases keys with
  | nil =>
    cases keys' with
    | nil => exact ⟨rfl, by simpa using same⟩
    | cons key' rest' =>
      simp only [toList_intercalate_quote, List.append_assoc] at same
      exact absurd same.symm (quote_append_ne key' (by decide) _ _)
  | cons key rest =>
    cases keys' with
    | nil =>
      simp only [toList_intercalate_quote, List.append_assoc] at same
      exact absurd same (quote_append_ne key (by decide) _ _)
    | cons key' rest' =>
      simp only [toList_intercalate_quote, List.append_assoc] at same
      obtain ⟨rfl, same⟩ := prefixFree_quote key key' _ _ same
      obtain ⟨rfl, rfl⟩ := others rest rest' s t (by simpa using same)
      exact ⟨rfl, rfl⟩

end Text

/-! ## Names of checks -/

theorem exactKeysName_injective {keys keys' : List String}
    (same : exactKeysName keys = exactKeysName keys') : keys = keys' := by
  have chars := congrArg String.toList same
  simp only [exactKeysName, String.toList_append, List.append_assoc,
    List.append_cancel_left_eq] at chars
  exact (Text.prefixFree_quotedKeys keys keys' [] [] (by simpa using chars)).1

theorem optionalName_injective {inner inner' : String}
    (same : optionalName inner = optionalName inner') : inner = inner' := by
  have chars := congrArg String.toList same
  simp only [optionalName, String.toList_append, List.append_assoc,
    List.append_cancel_left_eq, List.append_cancel_right_eq] at chars
  exact String.toList_inj.1 (by simpa using chars)

theorem optionalName_ne_exactKeysName (inner : String) (keys : List String) :
    optionalName inner ≠ exactKeysName keys := by
  intro same
  have chars := congrArg String.toList same
  simp [optionalName, exactKeysName] at chars

end ShapeCheck
