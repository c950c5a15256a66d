import ShapeCheck.Proofs.Relaxed.Marking

set_option autoImplicit false

/-! # What is forgiven

A text may be no JSON because of its comments and of commas behind last items and entries. These are forgiven if
a comment counts as white space and a comma counts as none behind an item or entry that is the last one. Taking
comments and commas out of the characters of a text forgives more. A comment between `/*` and `*/` leaves nothing,
so what stands before it and what stands behind it may become one word or numeral; and of an array or object that
holds nothing but a comma the comma is taken out as well. These are the only differences.

Main facts: `exists_of_dropTrailingCommas` (where commas have been taken out), `forgiveCommas_eq` (where they are
forgiven) and `isForgiven_iff`.
-/

namespace ShapeCheck

namespace Json

/-! ## Forgiven texts -/

/-- The text with comments read as white space. A comment that is not closed goes on to the end of the text. -/
def readComments (text : String) : String := String.ofList (fill [' '] (markComments .code text.toList))

/-- The tokens without commas between the end of a value and the end of an array or object. The first argument
says that a value has ended in front of the tokens. -/
def forgiveCommas (value : Bool) : List Token → List Token
  | [] => []
  | .comma :: token :: rest =>
    if value && token.closes then token :: forgiveCommas token.endsValue rest
    else .comma :: forgiveCommas false (token :: rest)
  | token :: rest => token :: forgiveCommas token.endsValue rest

/-- An array or object starts with the token. -/
def Token.opens : Token → Bool
  | .openArray | .openObject => true
  | _ => false

/-- An array or object holds nothing but a comma. -/
def HasLoneComma (ts : List Token) : Prop :=
  ∃ a b, [a, .comma, b] <:+: ts ∧ a.opens = true ∧ b.closes = true

theorem HasLoneComma.append {ts : List Token} (h : HasLoneComma ts) (before : List Token) :
    HasLoneComma (before ++ ts) := by
  obtain ⟨a, b, inside, ends⟩ := h
  exact ⟨a, b, inside.trans (List.suffix_append before ts).isInfix, ends⟩

/-- The text is JSON once comments are read as white space and commas behind last items and entries are
dropped. -/
def IsForgiven (text : String) : Prop := AreJson (forgiveCommas false (tokens (readComments text)))

/-- A comment divides a word or numeral, or stands between two of them. -/
def HasDividingComment (text : String) : Prop := Divides (markComments .code text.toList)

example : IsForgiven "[1, /* , */ ] // ," := ⟨_, rfl⟩

/-! ## Commas that are taken out -/

/-- Lexemes to which commas have been added in front of what ends an array or object. -/
inductive AddsCommas : List Lexeme → List Lexeme → Prop
  | nil : AddsCommas [] []
  | keep {lexeme : Lexeme} {lexemes lexemes' : List Lexeme} (rest : AddsCommas lexemes lexemes') :
    AddsCommas (lexeme :: lexemes) (lexeme :: lexemes')
  | comma {lexeme : Lexeme} {lexemes lexemes' : List Lexeme} (closes : lexeme.token.closes = true)
    (rest : AddsCommas lexemes lexemes') : AddsCommas (lexeme :: lexemes) (.comma :: lexeme :: lexemes')

/-- A comma that is taken out stands in front of a lexeme that ends an array or object. -/
theorem AddsCommas.add {lexemes lexemes' : List Lexeme} (adds : AddsCommas lexemes lexemes')
    (ends : (lexemes'.head?.any fun lexeme => lexeme.token.closes) = true) :
    AddsCommas lexemes (.comma :: lexemes') := by
  cases adds with
  | nil => cases ends
  | keep rest => exact .comma ends rest
  | comma _ _ => cases ends

/-- Where an array or object ends next, no word or numeral does come next. -/
theorem head?_dropTrailingCommas {rest : List Char} (ends : closesNext rest = true) :
    ∀ c ∈ (dropTrailingCommas .code rest).head?, isScalarChar c = false := by
  cases rest with
  | nil => cases ends
  | cons c rest =>
    have first : c ≠ '"' ∧ c ≠ ',' ∧ isScalarChar c = false := by
      unfold closesNext at ends
      cases blank : Text.isBlank c with
      | true =>
        refine ⟨?_, ?_, isScalarChar_of_isBlank blank⟩ <;> rintro rfl <;> cases blank
      | false =>
        rw [List.dropWhile_cons_of_neg (by simp [blank])] at ends
        simp only [Bool.or_eq_true, beq_iff_eq] at ends
        rcases ends with rfl | rfl <;> exact ⟨by decide, by decide, by decide⟩
    rw [dropTrailingCommas_cons first.1 fun comma => first.2.1 comma.1]
    rintro d ⟨⟩
    exact first.2.2

/-- Words and numerals are copied from where they stand. -/
theorem exists_scalars_behind {part rest out : List Char} (all : ∀ c ∈ part, isScalarChar c = true)
    (same : dropTrailingCommas .code rest = part ++ out) :
    ∃ behind, rest = part ++ behind ∧ dropTrailingCommas .code behind = out := by
  induction part generalizing rest with
  | nil => exact ⟨rest, rfl, same⟩
  | cons c part ih =>
    obtain ⟨scalar, others⟩ := List.forall_mem_cons.1 all
    cases rest with
    | nil =>
      rw [dropTrailingCommas] at same
      cases same
    | cons d rest =>
      by_cases quote : d = '"'
      · rw [quote, copiesValues_dropTrailingCommas.opening] at same
        obtain ⟨rfl, -⟩ := List.cons.inj same
        cases scalar
      by_cases taken : d = ',' ∧ closesNext rest = true
      · -- what follows a comma that is taken out ends an array or object, so it is no such character
        obtain ⟨rfl, ends⟩ := taken
        have first := head?_dropTrailingCommas ends c
        rw [← dropTrailingCommas_comma ends] at first
        rw [first (congrArg List.head? same)] at scalar
        cases scalar
      · rw [dropTrailingCommas_cons quote taken] at same
        obtain ⟨rfl, later⟩ := List.cons.inj same
        obtain ⟨behind, rfl, left⟩ := ih others later
        exact ⟨behind, rfl, left⟩

/-- What starts a lexeme without trailing commas starts it in the text as well. -/
theorem exists_lexeme_behind {c : Char} {lexemes : List Lexeme} {rest : List Char}
    (kept : ¬ (c = ',' ∧ closesNext rest = true)) (visible : isSpace c = false)
    (woven : Woven IsSpaces lexemes (dropTrailingCommas .code (c :: rest))) :
    ∃ lexeme others behind, lexemes = lexeme :: others ∧ c :: rest = lexeme.spelling ++ behind ∧
      Woven IsSpaces others (dropTrailingCommas .code behind) := by
  by_cases quote : c = '"'
  · rw [quote, copiesValues_dropTrailingCommas.opening] at woven
    obtain ⟨lexeme, others, out, rfl, same, split, woven⟩ := woven.exists_of_cons rfl
    rw [← List.map_id lexeme.rest] at split
    obtain ⟨behind, rfl, rfl⟩ := copiesValues_dropTrailingCommas.exists_of_append Function.injective_id
      (lexeme.closesString same) split
    exact ⟨lexeme, others, behind, rfl, by rw [quote, ← same]; rfl, woven⟩
  · rw [dropTrailingCommas_cons quote kept] at woven
    obtain ⟨lexeme, others, out, rfl, rfl, split, woven⟩ := woven.exists_of_cons visible
    rcases lexeme.rest_eq_nil_or_scalar quote with mark | scalar
    · rw [mark] at split
      exact ⟨lexeme, others, rest, rfl, by rw [Lexeme.spelling, mark]; rfl, by rwa [split]⟩
    · obtain ⟨behind, rfl, rfl⟩ := exists_scalars_behind (List.forall_mem_cons.1 scalar).2 split
      exact ⟨lexeme, others, behind, rfl, rfl, woven⟩

/-- The lexemes that are left without trailing commas are those of the text, but for commas in front of what ends
an array or object. -/
theorem exists_of_dropTrailingCommas {lexemes : List Lexeme} {text : List Char}
    (woven : Woven IsSpaces lexemes (dropTrailingCommas .code text)) :
    ∃ lexemes', AddsCommas lexemes lexemes' ∧ Woven IsSpaces lexemes' text := by
  -- the induction is on what is left of the text
  induction size : text.length using Nat.strong_induction_on generalizing lexemes text with
  | _ n ih =>
    subst size
    cases text with
    | nil =>
      rw [dropTrailingCommas] at woven
      rw [woven.eq_nil]
      exact ⟨[], .nil, .nil (List.forall_mem_nil _)⟩
    | cons c rest =>
      by_cases taken : c = ',' ∧ closesNext rest = true
      · obtain ⟨rfl, ends⟩ := taken
        have out := dropTrailingCommas_comma ends
        obtain ⟨lexemes', adds, inner⟩ := ih rest.length (by simp) (out ▸ woven) rfl
        exact ⟨_, adds.add (closesNext_woven inner ▸ ends), inner.lexeme⟩
      cases blank : isSpace c with
      | true =>
        have noQuote : c ≠ '"' := by
          rintro rfl
          cases blank
        rw [dropTrailingCommas_cons noQuote taken] at woven
        obtain ⟨lexemes', adds, inner⟩ := ih rest.length (by simp) (woven.of_space blank) rfl
        exact ⟨lexemes', adds, inner.space blank⟩
      | false =>
        obtain ⟨lexeme, others, behind, rfl, split, woven⟩ := exists_lexeme_behind taken blank woven
        rw [split] at ih ⊢
        have shorter : behind.length < (lexeme.spelling ++ behind).length := by
          rw [Lexeme.spelling, List.length_append, List.length_cons]
          omega
        obtain ⟨lexemes', adds, inner⟩ := ih behind.length shorter woven rfl
        exact ⟨lexeme :: lexemes', .keep adds, inner.lexeme⟩

/-! ## Commas that are forgiven -/

theorem AddsCommas.head?_eq {lexemes lexemes' : List Lexeme} (adds : AddsCommas lexemes lexemes') :
    lexemes'.head? = lexemes.head? ∨ lexemes'.head? = some .comma := by
  cases adds with
  | nil | keep _ => exact .inl rfl
  | comma _ _ => exact .inr rfl

/-- What holds of what follows a token, and of commas, holds if commas have been added. -/
theorem AddsCommas.head?_token {lexemes lexemes' : List Lexeme} (adds : AddsCommas lexemes lexemes')
    {P : Token → Prop} (first : ∀ token ∈ (lexemes.map Lexeme.token).head?, P token) (comma : P .comma) :
    ∀ token ∈ (lexemes'.map Lexeme.token).head?, P token := by
  rw [List.head?_map] at first ⊢
  rcases adds.head?_eq with same | same
  · rwa [same]
  · rw [same]
    rintro token ⟨⟩
    exact comma

/-- Values stay apart when commas are added. -/
theorem AddsCommas.apart {lexemes lexemes' : List Lexeme} (adds : AddsCommas lexemes lexemes')
    (apart : Apart (lexemes.map Lexeme.token)) : Apart (lexemes'.map Lexeme.token) := by
  induction adds with
  | nil => exact apart
  | @keep lexeme lexemes lexemes' adds ih =>
    obtain ⟨next, apart⟩ := List.isChain_cons.1 apart
    exact List.isChain_cons.2 ⟨adds.head?_token next fun _ => rfl, ih apart⟩
  | comma closes adds ih =>
    obtain ⟨next, apart⟩ := List.isChain_cons.1 apart
    exact List.isChain_cons.2 ⟨nofun, List.isChain_cons.2 ⟨adds.head?_token next fun _ => rfl, ih apart⟩⟩

theorem HasCommas.addsCommas {value : Bool} {lexemes lexemes' : List Lexeme}
    (commas : HasCommas value lexemes lexemes') : AddsCommas lexemes lexemes' := by
  induction commas with
  | nil => exact .nil
  | keep _ ih => exact .keep ih
  | comma closes _ ih => exact .comma closes ih

theorem forgiveCommas_cons {value : Bool} {token : Token} {rest : List Token}
    (other : token = .comma → ∀ next ∈ rest.head?, (value && next.closes) = false) :
    forgiveCommas value (token :: rest) = token :: forgiveCommas token.endsValue rest := by
  by_cases comma : token = .comma
  · subst comma
    cases rest with
    | nil => rfl
    | cons next rest =>
      rw [forgiveCommas, other rfl next rfl, if_neg Bool.false_ne_true]
      rfl
  · rw [forgiveCommas]
    exact fun _ _ same => absurd same comma

/-- In front of the end of an array or object a value ends, if this is not empty. -/
theorem Token.endsValue_of_isFollowedBy {before token : Token} (follows : before.IsFollowedBy token)
    (closes : token.closes = true) (whole : before.isBroken = false) (some : before.opens = false) :
    before.endsValue = true := by
  have noSeparator : before.separates = false := by
    by_contra separates
    rw [follows.2 (Bool.not_eq_false _ ▸ separates)] at closes
    cases closes
  cases before with
  | null | bool _ | number _ | string _ | closeArray | closeObject => rfl
  | openArray | openObject => cases some
  | comma | colon => cases noSeparator
  | brokenString _ | broken _ => cases whole

/-- Where no array or object holds nothing but a comma, commas have been added behind last items and entries. -/
theorem AddsCommas.hasCommas {before : Token} {lexemes lexemes' : List Lexeme}
    (adds : AddsCommas lexemes lexemes')
    (chain : (before :: lexemes.map Lexeme.token).IsChain Token.IsFollowedBy) (whole : before.isBroken = false)
    (noLone : ¬ HasLoneComma (before :: lexemes'.map Lexeme.token)) :
    HasCommas before.endsValue lexemes lexemes' := by
  induction adds generalizing before with
  | nil => exact .nil
  | @keep lexeme lexemes lexemes' _ ih =>
    obtain ⟨-, chain⟩ := List.isChain_cons.1 chain
    exact .keep (ih chain lexeme.whole fun lone => noLone (lone.append [before]))
  | @comma lexeme lexemes lexemes' closes _ ih =>
    obtain ⟨next, chain⟩ := List.isChain_cons.1 chain
    have some : before.opens = false := by
      by_contra opens
      refine noLone ⟨before, lexeme.token, ?_, Bool.not_eq_false _ ▸ opens, closes⟩
      exact ⟨[], lexemes'.map Lexeme.token, rfl⟩
    rw [Token.endsValue_of_isFollowedBy (next _ rfl) closes whole some]
    exact .comma closes (ih chain lexeme.whole fun lone => noLone (lone.append [before, .comma]))

/-- No array or object holds nothing but a comma if commas have been added behind last items and entries. -/
theorem HasCommas.not_hasLoneComma {before : Token} {lexemes lexemes' : List Lexeme} {value : Bool}
    (commas : HasCommas value lexemes lexemes') (same : value = before.endsValue)
    (chain : (before :: lexemes.map Lexeme.token).IsChain Token.IsFollowedBy) :
    ¬ HasLoneComma (before :: lexemes'.map Lexeme.token) := by
  induction commas generalizing before with
  | nil =>
    rintro ⟨a, b, inside, -⟩
    exact absurd inside.length_le (by simp)
  | @keep value lexeme lexemes lexemes' commas ih =>
    obtain ⟨-, chain⟩ := List.isChain_cons.1 chain
    rintro ⟨a, b, inside, opens, closes⟩
    rcases List.infix_cons_iff.1 inside with first | later
    · -- the comma stood there before others were added, so what follows it is no end
      obtain ⟨-, first⟩ := List.cons_prefix_cons.1 first
      obtain ⟨comma, first⟩ := List.cons_prefix_cons.1 first
      have next : b ∈ (lexemes.map Lexeme.token).head? := by
        have kept := commas.head?_eq (by rw [← comma]; rfl)
        rw [List.head?_map, ← kept, ← List.head?_map]
        obtain ⟨rest, split⟩ := first
        rw [← split]
        rfl
      have noEnd := ((List.isChain_cons.1 chain).1 b next).2 (by rw [← comma]; rfl)
      rw [closes] at noEnd
      cases noEnd
    · exact ih rfl chain ⟨a, b, later, opens, closes⟩
  | @comma lexeme lexemes lexemes' _ _ ih =>
    obtain ⟨-, chain⟩ := List.isChain_cons.1 chain
    rintro ⟨a, b, inside, opens, closes⟩
    rcases List.infix_cons_iff.1 inside with first | later
    · -- where a value ends nothing starts
      rw [(List.cons_prefix_cons.1 first).1] at opens
      cases before with
      | openArray | openObject => cases same
      | _ => cases opens
    rcases List.infix_cons_iff.1 later with first | later
    · rw [(List.cons_prefix_cons.1 first).1] at opens
      cases opens
    · exact ih rfl chain ⟨a, b, later, opens, closes⟩

/-- Commas behind last items and entries are forgiven, and no others. -/
theorem forgiveCommas_eq {value : Bool} {lexemes lexemes' : List Lexeme}
    (commas : HasCommas value lexemes lexemes')
    (chain : (lexemes.map Lexeme.token).IsChain Token.IsFollowedBy) :
    forgiveCommas value (lexemes'.map Lexeme.token) = lexemes.map Lexeme.token := by
  induction commas with
  | nil => rfl
  | @keep value lexeme lexemes lexemes' commas ih =>
    obtain ⟨next, chain⟩ := List.isChain_cons.1 chain
    rw [List.map_cons, List.map_cons, forgiveCommas_cons, ih chain]
    intro comma
    refine commas.addsCommas.head?_token (fun token first => ?_) (Bool.and_false value)
    rw [(next token first).2 (comma ▸ rfl), Bool.and_false]
  | @comma lexeme lexemes lexemes' closes commas ih =>
    obtain ⟨-, chain⟩ := List.isChain_cons.1 chain
    rw [List.map_cons, List.map_cons, List.map_cons, ← ih chain]
    show forgiveCommas true (.comma :: lexeme.token :: _) = _
    rw [forgiveCommas, closes, Bool.and_true, if_pos rfl]

/-- A comma is spelled in one way. -/
theorem Lexeme.eq_comma {lexeme : Lexeme} (comma : lexeme.token = .comma) : lexeme = .comma := by
  have spelled := lexeme.isSpelled
  obtain ⟨c, part, token, reads, whole⟩ := lexeme
  obtain rfl : token = .comma := comma
  cases spelled with
  | mark listed =>
    obtain rfl : c = ',' := by simpa [marks] using listed
    rfl
  | scalar _ noMark => cases noMark

/-- What is forgiven are commas that have been added behind last items and entries. -/
theorem exists_hasCommas (value : Bool) (lexemes' : List Lexeme) :
    ∃ lexemes, HasCommas value lexemes lexemes' ∧
      lexemes.map Lexeme.token = forgiveCommas value (lexemes'.map Lexeme.token) := by
  match lexemes' with
  | [] => exact ⟨[], .nil, rfl⟩
  | [lexeme] =>
    refine ⟨[lexeme], .keep .nil, ?_⟩
    rw [List.map_cons, forgiveCommas_cons]
    · rfl
    · rintro - next ⟨⟩
  | lexeme :: next :: rest =>
    by_cases forgiven : lexeme.token = .comma ∧ value = true ∧ next.token.closes = true
    · obtain ⟨comma, rfl, closes⟩ := forgiven
      obtain ⟨lexemes, commas, same⟩ := exists_hasCommas next.token.endsValue rest
      refine ⟨next :: lexemes, lexeme.eq_comma comma ▸ .comma closes commas, ?_⟩
      rw [List.map_cons, List.map_cons, List.map_cons, comma, forgiveCommas, closes, Bool.and_true,
        if_pos rfl, same]
    · obtain ⟨lexemes, commas, same⟩ := exists_hasCommas lexeme.token.endsValue (next :: rest)
      refine ⟨lexeme :: lexemes, .keep commas, ?_⟩
      rw [List.map_cons, List.map_cons, forgiveCommas_cons, same]
      rintro comma token ⟨⟩
      rw [Bool.and_eq_false_iff, ← Bool.not_eq_true, ← Bool.not_eq_true]
      by_contra both
      rw [not_or, not_not, not_not] at both
      exact forgiven ⟨comma, both⟩

/-- A token is kept, or it is a comma. -/
theorem mem_forgiveCommas {value : Bool} {ts : List Token} {token : Token} (inside : token ∈ ts) :
    token = .comma ∨ token ∈ forgiveCommas value ts := by
  induction value, ts using forgiveCommas.induct with
  | case1 => cases inside
  | case2 value next rest forgiven ih =>
    rw [forgiveCommas, if_pos forgiven]
    rcases List.mem_cons.1 inside with rfl | inside
    · exact .inl rfl
    rcases List.mem_cons.1 inside with rfl | inside
    · exact .inr List.mem_cons_self
    · exact (ih inside).imp_right (List.mem_cons_of_mem next)
  | case3 value next rest kept ih =>
    rw [forgiveCommas, if_neg kept]
    rcases List.mem_cons.1 inside with rfl | inside
    · exact .inl rfl
    · exact (ih inside).imp_right (List.mem_cons_of_mem _)
  | case4 value next rest other ih =>
    rw [forgiveCommas]
    · rcases List.mem_cons.1 inside with rfl | inside
      · exact .inr List.mem_cons_self
      · exact (ih inside).imp_right (List.mem_cons_of_mem next)
    · exact other

/-! ## Both readings -/

theorem isSpaces_blank : IsSpaces [' '] := by simp [IsSpaces, isSpace]

/-- A text that is forgiven is JSON without comments and trailing commas. -/
theorem IsForgiven.isJson_plainText {text : String} (json : IsForgiven text) :
    IsJson (plainText text) ∧ ¬ HasDividingComment text ∧ ¬ HasLoneComma (tokens (readComments text)) := by
  have whole : ∀ token ∈ tokens (readComments text), token.isBroken = false := by
    intro token inside
    rcases mem_forgiveCommas inside with rfl | kept
    · rfl
    · exact json.isChain.1 token kept
  obtain ⟨lexemes', woven, read⟩ := exists_woven (readComments text).toList.length le_rfl whole
  rw [readComments, String.toList_ofList] at woven
  -- marks stand between lexemes, so they may stand for nothing as well
  have marked := isMarked_of_woven isSpaces_blank nofun woven
  obtain ⟨lexemes, commas, forgiven⟩ := exists_hasCommas false lexemes'
  change tokens (readComments text) = _ at read
  rw [IsForgiven, read, ← forgiven] at json
  refine ⟨?_, marked.not_divides (commas.addsCommas.apart json.apart), fun lone => ?_⟩
  · have empty : IsSpaces [] := List.forall_mem_nil _
    have stripped : Woven IsSpaces lexemes' (stripComments .code text.toList) :=
      fill_markComments .code text.toList ▸ marked.woven empty
    have plain : Woven IsSpaces lexemes (plainText text).toList := by
      rw [plainText, String.toList_ofList]
      exact woven_dropTrailingCommas commas json.isChain.2 stripped
    rw [IsJson, tokens_of_woven plain json.apart]
    exact json
  · rw [read] at lone
    exact commas.not_hasLoneComma rfl json.isChain_comma (lone.append [.comma])

/-- Where no comment divides words and numerals and no comma stands alone, a text that is JSON without comments and
trailing commas is forgiven. -/
theorem isForgiven_of_isJson_plainText {text : String} (json : IsJson (plainText text))
    (whole : ¬ HasDividingComment text) (noLone : ¬ HasLoneComma (tokens (readComments text))) :
    IsForgiven text := by
  obtain ⟨lexemes, woven, read⟩ := exists_spells json
  rw [IsJson, read] at json
  rw [plainText, String.toList_ofList] at woven
  obtain ⟨lexemes', adds, woven⟩ := exists_of_dropTrailingCommas woven
  rw [← fill_markComments] at woven
  have empty : IsSpaces [] := List.forall_mem_nil _
  -- no mark divides a word or numeral, so marks may stand for white space as well
  have marked := isMarked_of_woven empty (fun _ => whole) woven
  have commented : tokens (readComments text) = lexemes'.map Lexeme.token :=
    (hasTokens_woven (marked.woven isSpaces_blank) (adds.apart json.apart)).tokens_eq
  have lone : ¬ HasLoneComma (.comma :: lexemes'.map Lexeme.token) := by
    rintro ⟨a, b, inside, opens, closes⟩
    rcases List.infix_cons_iff.1 inside with first | later
    · -- a comma opens nothing
      rw [(List.cons_prefix_cons.1 first).1] at opens
      cases opens
    · exact noLone (commented ▸ ⟨a, b, later, opens, closes⟩)
  have commas : HasCommas false lexemes lexemes' := adds.hasCommas json.isChain_comma rfl lone
  rwa [IsForgiven, commented, forgiveCommas_eq commas json.isChain.2]

/-- A text is JSON without comments and trailing commas exactly if it is forgiven; but a comment that divides a
word or numeral and a comma that stands alone in an array or object are never forgiven, and may not be there. -/
theorem isForgiven_iff (text : String) :
    IsForgiven text ↔
      IsJson (plainText text) ∧ ¬ HasDividingComment text ∧ ¬ HasLoneComma (tokens (readComments text)) :=
  ⟨IsForgiven.isJson_plainText,
    fun ⟨json, whole, noLone⟩ => isForgiven_of_isJson_plainText json whole noLone⟩

/-- Two halves of a word become one, and a comma that stands alone is taken out: what is left of the texts is
JSON, but the texts are not forgiven. -/
theorem exists_isJson_plainText_not_isForgiven :
    (∃ text, text = "\x7b\"compilerOptions\":\x7b\"shortCircuit\":tr/**/ue\x7d\x7d" ∧
      IsJson (plainText text) ∧ ¬ IsForgiven text) ∧
    ∃ text, text = "[,]" ∧ IsJson (plainText text) ∧ ¬ IsForgiven text := by
  constructor
  · refine ⟨_, rfl, ⟨_, rfl⟩, ?_⟩
    rintro ⟨draft, done⟩
    cases done
  · refine ⟨_, rfl, ⟨_, rfl⟩, ?_⟩
    rintro ⟨draft, done⟩
    cases done

end Json

end ShapeCheck
