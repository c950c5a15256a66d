import ShapeCheck.Proofs.Relaxed.Lexemes
import ShapeCheck.Settings.Config

set_option autoImplicit false

/-! # Decorated texts

A text in JSON may be decorated: between its lexemes go white space and comments, and a comma may stand behind
the last item of an array and the last entry of an object. What is left once comments and such commas are taken
out are the same lexemes. Strings are copied as they are spelled, so what looks like a comment or a comma inside
of one does not count.

Main facts: `woven_stripComments`, `woven_dropTrailingCommas` and `ofText_decorated`.
-/

namespace ShapeCheck

namespace Json

/-! ## Decorations -/

/-- What may be put between lexemes: white space, a comment between `/*` and `*/`, or a comment to the end of a
line with the end of the line. -/
inductive IsFiller : List Char → Prop
  | space {c : Char} (h : isSpace c = true) : IsFiller [c]
  | block {inner : List Char} (h : ¬ ['*', '/'] <:+: inner) : IsFiller ('/' :: '*' :: (inner ++ ['*', '/']))
  | line {inner : List Char} (h : '\n' ∉ inner) : IsFiller ('/' :: '/' :: (inner ++ ['\n']))

/-- Fillers in any number. -/
inductive IsGap : List Char → Prop
  | nil : IsGap []
  | cons {filler gap : List Char} (first : IsFiller filler) (rest : IsGap gap) : IsGap (filler ++ gap)

/-- A comma as a lexeme. -/
def Lexeme.comma : Lexeme := ⟨',', [], .comma, rfl, rfl⟩

/-- Lexemes to which commas have been added: one may stand in front of a lexeme that ends an array or object,
behind a lexeme that ends a value. The first argument says that a value has ended in front of the lexemes. -/
inductive HasCommas : Bool → List Lexeme → List Lexeme → Prop
  | nil {value : Bool} : HasCommas value [] []
  | keep {value : Bool} {lexeme : Lexeme} {lexemes lexemes' : List Lexeme}
    (rest : HasCommas lexeme.token.endsValue lexemes lexemes') :
    HasCommas value (lexeme :: lexemes) (lexeme :: lexemes')
  | comma {lexeme : Lexeme} {lexemes lexemes' : List Lexeme} (closes : lexeme.token.closes = true)
    (rest : HasCommas lexeme.token.endsValue lexemes lexemes') :
    HasCommas true (lexeme :: lexemes) (.comma :: lexeme :: lexemes')

/-- The text consists of the lexemes and of white space, and has their tokens. -/
structure Spells (lexemes : List Lexeme) (text : String) : Prop where
  woven : Woven IsSpaces lexemes text.toList
  tokens : tokens text = lexemes.map Lexeme.token

/-- The text consists of the lexemes, of fillers between them, and of commas behind last items and entries. -/
def Decorates (lexemes : List Lexeme) (text : String) : Prop :=
  ∃ lexemes', HasCommas false lexemes lexemes' ∧ Woven IsGap lexemes' text.toList

/-- The text is JSON. -/
def IsJson (text : String) : Prop := AreJson (tokens text)

/-! ## Readers of characters -/

/-- A reader of characters copies strings, words and numerals. -/
structure CopiesValues (scan : Region → List Char → List Char) : Prop extends CopiesStrings id scan where
  opening : ∀ rest, scan .code ('"' :: rest) = '"' :: scan .string rest
  scalar : ∀ c rest, isScalarChar c = true → scan .code (c :: rest) = c :: scan .code rest

namespace CopiesValues

variable {scan : Region → List Char → List Char} (copies : CopiesValues scan)
include copies

theorem scalars {part : List Char} (all : ∀ c ∈ part, isScalarChar c = true) (rest : List Char) :
    scan .code (part ++ rest) = part ++ scan .code rest := by
  induction part with
  | nil => rfl
  | cons c part ih =>
    obtain ⟨first, others⟩ := List.forall_mem_cons.1 all
    rw [List.cons_append, copies.scalar c _ first, ih others, List.cons_append]

/-- The reader gets past a lexeme, if it copies the lexeme in case this is a mark. -/
theorem spelling (lexeme : Lexeme) {rest : List Char}
    (mark : (lexeme.first, lexeme.token) ∈ marks →
      scan .code (lexeme.first :: rest) = lexeme.first :: scan .code rest) :
    scan .code (lexeme.spelling ++ rest) = lexeme.spelling ++ scan .code rest := by
  have spelled := lexeme.isSpelled
  rw [Lexeme.spelling, List.cons_append, List.cons_append]
  obtain ⟨c, part, token, reads, whole⟩ := lexeme
  cases spelled with
  | mark listed => exact mark listed
  | string quote closes =>
    rw [quote, copies.opening, copies.append closes, List.map_id]
  | scalar all _ => exact copies.scalars all rest

end CopiesValues

/-! ## Comments -/

theorem stripComments_cons {c : Char} (noSlash : c ≠ '/') (noQuote : c ≠ '"') (rest : List Char) :
    stripComments .code (c :: rest) = c :: stripComments .code rest := by
  rw [stripComments]
  · exact fun _ same => absurd same noSlash
  · exact fun _ same => absurd same noSlash
  · exact noQuote

theorem copiesValues_stripComments : CopiesValues stripComments where
  nil region := by rw [stripComments]
  quote rest := by rw [stripComments]; rfl
  backslash rest := by rw [stripComments]; rfl
  escaped c rest := by rw [stripComments]; rfl
  char c rest noQuote noBackslash := by
    rw [stripComments]
    · rfl
    · exact noQuote
    · exact noBackslash
  opening rest := by rw [stripComments]
  scalar c rest scalar := by
    refine stripComments_cons ?_ ?_ rest <;> rintro rfl <;> cases scalar

theorem stripComments_block {inner : List Char} (h : ¬ ['*', '/'] <:+: inner) (rest : List Char) :
    stripComments .blockComment (inner ++ '*' :: '/' :: rest) = stripComments .code rest := by
  induction inner with
  | nil => rw [List.nil_append, stripComments]
  | cons c inner ih =>
    have later : ¬ ['*', '/'] <:+: inner := fun inside => h (inside.trans (List.suffix_cons c inner).isInfix)
    rw [List.cons_append, stripComments, ih later]
    -- the comment does not end here
    intro behind star ends
    cases inner with
    | nil => cases ends
    | cons d inner =>
      obtain ⟨rfl, -⟩ := List.cons.inj ends
      exact h (star ▸ (List.prefix_append ['*', '/'] inner).isInfix)

theorem stripComments_line {inner : List Char} (h : '\n' ∉ inner) (rest : List Char) :
    stripComments .lineComment (inner ++ '\n' :: rest) = '\n' :: stripComments .code rest := by
  induction inner with
  | nil => rw [List.nil_append, stripComments]
  | cons c inner ih =>
    rw [List.mem_cons, not_or] at h
    rw [List.cons_append, stripComments, ih h.2]
    exact Ne.symm h.1

/-- Of a filler white space is left, or nothing. -/
theorem exists_stripComments_filler {filler : List Char} (h : IsFiller filler) :
    ∃ spaces, IsSpaces spaces ∧
      ∀ rest, stripComments .code (filler ++ rest) = spaces ++ stripComments .code rest := by
  cases h with
  | @space c blank =>
    refine ⟨[c], by simpa [IsSpaces] using blank, fun rest => ?_⟩
    refine stripComments_cons ?_ ?_ rest <;> rintro rfl <;> cases blank
  | @block inner closes =>
    refine ⟨[], nofun, fun rest => ?_⟩
    have ends := stripComments_block closes rest
    rw [List.cons_append, List.cons_append, List.append_assoc, stripComments]
    exact ends
  | @line inner ends =>
    refine ⟨['\n'], by simp [IsSpaces, isSpace], fun rest => ?_⟩
    have ends := stripComments_line ends rest
    rw [List.cons_append, List.cons_append, List.append_assoc, stripComments]
    exact ends

theorem exists_stripComments_gap {gap : List Char} (h : IsGap gap) :
    ∃ spaces, IsSpaces spaces ∧
      ∀ rest, stripComments .code (gap ++ rest) = spaces ++ stripComments .code rest := by
  induction h with
  | nil => exact ⟨[], nofun, fun _ => rfl⟩
  | cons first _ ih =>
    obtain ⟨before, blankBefore, first⟩ := exists_stripComments_filler first
    obtain ⟨behind, blankBehind, others⟩ := ih
    refine ⟨before ++ behind, List.forall_mem_append.2 ⟨blankBefore, blankBehind⟩, fun rest => ?_⟩
    rw [List.append_assoc, first, others, List.append_assoc]

/-- Without comments white space is left between lexemes. -/
theorem woven_stripComments {lexemes : List Lexeme} {text : List Char} (woven : Woven IsGap lexemes text) :
    Woven IsSpaces lexemes (stripComments .code text) := by
  induction woven with
  | @nil gap h =>
    obtain ⟨spaces, blank, same⟩ := exists_stripComments_gap h
    have alone := same []
    rw [List.append_nil, stripComments, List.append_nil] at alone
    exact alone ▸ .nil blank
  | @cons gap text lexeme lexemes h _ ih =>
    obtain ⟨spaces, blank, same⟩ := exists_stripComments_gap h
    rw [same, copiesValues_stripComments.spelling lexeme]
    · exact .cons blank ih
    · intro mark
      refine stripComments_cons ?_ ?_ text <;> intro same <;> rw [same] at mark <;> simp [marks] at mark

/-! ## Commas -/

theorem isBlank_of_isSpace {c : Char} (h : isSpace c = true) : Text.isBlank c = true := by
  rcases isSpace_iff.1 h with ((rfl | rfl) | rfl) | rfl <;> decide

theorem isBlank_of_isScalarChar {c : Char} (scalar : isScalarChar c = true) : Text.isBlank c = false := by
  -- the characters of words and numerals lie between the plus sign and the small letters
  have range : 0x2b ≤ c.toNat ∧ c.toNat ≤ 0x7a := by
    unfold isScalarChar Char.isAlphanum Char.isAlpha Char.isUpper Char.isLower Char.isDigit at scalar
    simp only [Bool.or_eq_true, Bool.and_eq_true, decide_eq_true_eq, beq_iff_eq, ge_iff_le,
      UInt32.le_iff_toNat_le] at scalar
    have number : c.val.toNat = c.toNat := rfl
    rcases scalar with ((((⟨low, high⟩ | ⟨low, high⟩) | ⟨low, high⟩) | rfl) | rfl) | rfl
    · simp at low high
      omega
    · simp at low high
      omega
    · simp at low high
      omega
    · decide
    · decide
    · decide
  unfold Text.isBlank
  simp only [Bool.or_eq_false_iff, Bool.and_eq_false_iff, decide_eq_false_iff_not, beq_eq_false_iff_ne]
  omega

/-- No blank is part of a word or numeral. -/
theorem isScalarChar_of_isBlank {c : Char} (blank : Text.isBlank c = true) : isScalarChar c = false := by
  by_contra scalar
  rw [isBlank_of_isScalarChar (Bool.not_eq_false _ ▸ scalar)] at blank
  cases blank

/-- Of the first character of a lexeme one sees whether it ends an array or object; it is no blank. -/
theorem IsSpelled.closes_eq {c : Char} {part : List Char} {token : Token} (spelled : IsSpelled c part token) :
    Text.isBlank c = false ∧ (c == ']' || c == '\x7d') = token.closes := by
  cases spelled with
  | mark listed =>
    have all : ∀ mark ∈ marks, Text.isBlank mark.1 = false ∧
        (mark.1 == ']' || mark.1 == '\x7d') = mark.2.closes := by decide
    have first := all (c, token) listed
    exact first
  | string quote _ =>
    rw [quote]
    exact ⟨by decide, rfl⟩
  | scalar all other =>
    have first := all c List.mem_cons_self
    have noEnd : token.closes = false := by
      cases token with
      | closeArray | closeObject => cases other
      | _ => rfl
    refine ⟨isBlank_of_isScalarChar first, ?_⟩
    rw [noEnd, Bool.or_eq_false_iff, beq_eq_false_iff_ne, beq_eq_false_iff_ne]
    constructor <;> rintro rfl <;> cases first

/-- Whether a text ends an array or object next is said by its first lexeme. -/
theorem closesNext_woven {lexemes : List Lexeme} {text : List Char} (woven : Woven IsSpaces lexemes text) :
    closesNext text = lexemes.head?.any fun lexeme => lexeme.token.closes := by
  have blank {gap : List Char} (spaces : IsSpaces gap) : ∀ c ∈ gap, Text.isBlank c = true :=
    fun c inside => isBlank_of_isSpace (spaces c inside)
  cases woven with
  | nil spaces =>
    rw [closesNext, List.dropWhile_eq_nil_iff.2 (blank spaces)]
    rfl
  | @cons gap text lexeme lexemes spaces rest =>
    obtain ⟨visible, closes⟩ := lexeme.isSpelled.closes_eq
    rw [closesNext, List.dropWhile_append_of_pos (blank spaces), Lexeme.spelling, List.cons_append,
      List.dropWhile_cons_of_neg (by simp [visible])]
    exact closes

theorem dropTrailingCommas_cons {c : Char} {rest : List Char} (noQuote : c ≠ '"')
    (other : ¬ (c = ',' ∧ closesNext rest = true)) :
    dropTrailingCommas .code (c :: rest) = c :: dropTrailingCommas .code rest := by
  rw [dropTrailingCommas, if_neg other]
  all_goals simp [noQuote]

theorem dropTrailingCommas_comma {rest : List Char} (ends : closesNext rest = true) :
    dropTrailingCommas .code (Lexeme.comma.spelling ++ rest) = dropTrailingCommas .code rest := by
  show dropTrailingCommas .code (',' :: rest) = _
  rw [dropTrailingCommas, if_pos ⟨rfl, ends⟩]
  all_goals simp

theorem copiesValues_dropTrailingCommas : CopiesValues dropTrailingCommas where
  nil region := by rw [dropTrailingCommas]
  quote rest := by rw [dropTrailingCommas]; rfl
  backslash rest := by rw [dropTrailingCommas]; rfl
  escaped c rest := by rw [dropTrailingCommas]; rfl
  char c rest noQuote noBackslash := by
    rw [dropTrailingCommas]
    · rfl
    · exact noQuote
    · exact noBackslash
  opening rest := by
    rw [dropTrailingCommas]
    all_goals simp
  scalar c rest scalar := by
    have noQuote : c ≠ '"' := by
      rintro rfl
      cases scalar
    refine dropTrailingCommas_cons noQuote ?_
    rintro ⟨rfl, -⟩
    cases scalar

theorem dropTrailingCommas_spaces {gap : List Char} (spaces : IsSpaces gap) (rest : List Char) :
    dropTrailingCommas .code (gap ++ rest) = gap ++ dropTrailingCommas .code rest := by
  induction gap with
  | nil => rfl
  | cons c gap ih =>
    obtain ⟨first, others⟩ := List.forall_mem_cons.1 spaces
    have noQuote : c ≠ '"' := by
      rintro rfl
      cases first
    rw [List.cons_append, dropTrailingCommas_cons noQuote, ih others, List.cons_append]
    rintro ⟨rfl, -⟩
    cases first

/-- A lexeme is kept, unless it is a comma and an array or object ends behind it. -/
theorem dropTrailingCommas_spelling (lexeme : Lexeme) {rest : List Char}
    (kept : lexeme.token = .comma → closesNext rest = false) :
    dropTrailingCommas .code (lexeme.spelling ++ rest) =
      lexeme.spelling ++ dropTrailingCommas .code rest := by
  refine copiesValues_dropTrailingCommas.spelling lexeme fun mark => ?_
  have noQuote : lexeme.first ≠ '"' := by
    intro same
    simp [same, marks] at mark
  refine dropTrailingCommas_cons noQuote ?_
  rintro ⟨same, ends⟩
  have comma : lexeme.token = .comma := by simpa [same, marks] using mark
  rw [kept comma] at ends
  cases ends

/-- Where no value has ended no comma has been added. -/
theorem HasCommas.head?_eq {value : Bool} {lexemes lexemes' : List Lexeme}
    (commas : HasCommas value lexemes lexemes') (noValue : value = false) : lexemes'.head? = lexemes.head? := by
  cases commas with
  | nil | keep _ => rfl
  | comma _ _ => cases noValue

/-- Commas that have been added behind last items and entries are taken out, and no others. -/
theorem woven_dropTrailingCommas {value : Bool} {lexemes lexemes' : List Lexeme} {text : List Char}
    (commas : HasCommas value lexemes lexemes')
    (chain : (lexemes.map Lexeme.token).IsChain Token.IsFollowedBy) (woven : Woven IsSpaces lexemes' text) :
    Woven IsSpaces lexemes (dropTrailingCommas .code text) := by
  induction commas generalizing text with
  | nil =>
    cases woven with
    | nil spaces =>
      have alone := dropTrailingCommas_spaces spaces []
      rw [List.append_nil, dropTrailingCommas, List.append_nil] at alone
      rw [alone]
      exact .nil spaces
  | @keep value lexeme lexemes lexemes' commas ih =>
    cases woven with
    | @cons gap text _ _ spaces woven =>
      obtain ⟨follows, chain⟩ := List.isChain_cons.1 chain
      rw [dropTrailingCommas_spaces spaces, dropTrailingCommas_spelling lexeme]
      · exact .cons spaces (ih chain woven)
      · -- a comma of the text itself has an item or entry behind it
        intro comma
        have noValue : lexeme.token.endsValue = false := by rw [comma]; rfl
        rw [closesNext_woven woven, commas.head?_eq noValue]
        cases lexemes with
        | nil => rfl
        | cons next lexemes => exact (follows next.token rfl).2 (by rw [comma]; rfl)
  | @comma lexeme lexemes lexemes' closes commas ih =>
    cases woven with
    | @cons gap text _ _ spaces woven =>
      cases woven with
      | @cons gap' text _ _ spaces' woven =>
        obtain ⟨-, chain⟩ := List.isChain_cons.1 chain
        have ends : closesNext (gap' ++ (lexeme.spelling ++ text)) = true :=
          (closesNext_woven (.cons spaces' woven)).trans closes
        have other : lexeme.token ≠ .comma := by
          intro comma
          rw [comma] at closes
          cases closes
        rw [dropTrailingCommas_spaces spaces, dropTrailingCommas_comma ends, dropTrailingCommas_spaces spaces',
          dropTrailingCommas_spelling lexeme fun comma => absurd comma other]
        exact .spaces spaces (.cons spaces' (ih chain woven))

/-! ## Configurations -/

theorem tokens_of_woven {lexemes : List Lexeme} {text : String} (woven : Woven IsSpaces lexemes text.toList)
    (apart : Apart (lexemes.map Lexeme.token)) : tokens text = lexemes.map Lexeme.token := by
  have read := (hasTokens_woven woven apart).tokens_eq
  rwa [String.ofList_toList] at read

theorem exists_spells {text : String} (json : IsJson text) : ∃ lexemes, Spells lexemes text := by
  obtain ⟨lexemes, woven, read⟩ := exists_woven text.toList.length le_rfl json.isChain.1
  exact ⟨lexemes, woven, read⟩

theorem Woven.mono {IsGap IsGap' : List Char → Prop} (h : ∀ gap, IsGap gap → IsGap' gap) {lexemes : List Lexeme}
    {text : List Char} (woven : Woven IsGap lexemes text) : Woven IsGap' lexemes text := by
  induction woven with
  | nil gap => exact .nil (h _ gap)
  | cons gap _ ih => exact .cons (h _ gap) ih

theorem isGap_of_isSpaces {gap : List Char} (spaces : IsSpaces gap) : IsGap gap := by
  induction gap with
  | nil => exact .nil
  | cons c gap ih =>
    obtain ⟨first, others⟩ := List.forall_mem_cons.1 spaces
    exact .cons (.space first) (ih others)

theorem hasCommas_refl (value : Bool) (lexemes : List Lexeme) : HasCommas value lexemes lexemes := by
  induction lexemes generalizing value with
  | nil => exact .nil
  | cons lexeme lexemes ih => exact .keep (ih _)

/-- A text decorates itself. -/
theorem Spells.decorates {lexemes : List Lexeme} {text : String} (spells : Spells lexemes text) :
    Decorates lexemes text :=
  ⟨lexemes, hasCommas_refl false lexemes, spells.woven.mono fun _ => isGap_of_isSpaces⟩

/-- Without comments and trailing commas the lexemes are left. -/
theorem spells_plainText {lexemes : List Lexeme} {decorated : String}
    (json : AreJson (lexemes.map Lexeme.token)) (decorates : Decorates lexemes decorated) :
    Spells lexemes (plainText decorated) := by
  obtain ⟨lexemes', commas, woven⟩ := decorates
  have plain : Woven IsSpaces lexemes (plainText decorated).toList := by
    rw [plainText, String.toList_ofList]
    exact woven_dropTrailingCommas commas json.isChain.2 (woven_stripComments woven)
  exact ⟨plain, tokens_of_woven plain json.apart⟩

/-- A text in JSON consists of lexemes, and however it is decorated: without comments and trailing commas the
same lexemes are left, so the configuration is the same. -/
theorem ofText_decorated {text : String} (json : IsJson text) :
    (∃ lexemes, Spells lexemes text) ∧
      ∀ lexemes, Spells lexemes text → ∀ decorated, Decorates lexemes decorated →
        Spells lexemes (plainText decorated) ∧ ConfigFile.ofText decorated = ConfigFile.ofText text := by
  refine ⟨exists_spells json, fun lexemes spells decorated decorates => ?_⟩
  have lexemesJson : AreJson (lexemes.map Lexeme.token) := spells.tokens ▸ json
  have plain := spells_plainText lexemesJson decorates
  have own := spells_plainText lexemesJson spells.decorates
  exact ⟨plain, readText_eq_of_tokens_eq _ (plain.tokens.trans own.tokens.symm)⟩

/-- A comment and a comma are taken out behind a string that looks like a comment. -/
theorem ofText_decorated_extends :
    ConfigFile.ofText "\x7b\"extends\": \"a//b\" /* , */, \x7d" = ConfigFile.ofText "\x7b\"extends\":\"a//b\"\x7d" ∧
      ConfigFile.ofText "\x7b\"extends\":\"a//b\"\x7d" = .ok ⟨some "a//b", none⟩ := by
  have json : IsJson "\x7b\"extends\":\"a//b\"\x7d" := ⟨_, rfl⟩
  let opening : Lexeme := ⟨'\x7b', [], .openObject, rfl, rfl⟩
  let key : Lexeme := ⟨'"', "extends\"".toList, .string (some "extends"), rfl, rfl⟩
  let colon : Lexeme := ⟨':', [], .colon, rfl, rfl⟩
  let value : Lexeme := ⟨'"', "a//b\"".toList, .string (some "a//b"), rfl, rfl⟩
  let closing : Lexeme := ⟨'\x7d', [], .closeObject, rfl, rfl⟩
  have empty : IsSpaces [] := nofun
  have plain : Woven IsSpaces [opening, key, colon, value, closing] "\x7b\"extends\":\"a//b\"\x7d".toList :=
    .cons empty (.cons empty (.cons empty (.cons empty (.cons empty (.nil empty)))))
  have spells : Spells [opening, key, colon, value, closing] "\x7b\"extends\":\"a//b\"\x7d" := ⟨plain, rfl⟩
  have blank : IsGap [' '] := .cons (.space rfl) .nil
  have comment : IsGap " /* , */".toList := by
    have block : IsFiller "/* , */".toList := .block (by decide : ¬ ['*', '/'] <:+: [' ', ',', ' '])
    exact .cons (.space rfl) (.cons block .nil)
  have decorates : Decorates [opening, key, colon, value, closing] "\x7b\"extends\": \"a//b\" /* , */, \x7d" := by
    refine ⟨[opening, key, colon, value, .comma, closing], .keep (.keep (.keep (.keep (.comma rfl .nil)))), ?_⟩
    exact .cons .nil (.cons .nil (.cons .nil (.cons blank (.cons comment (.cons blank (.nil .nil))))))
  exact ⟨((ofText_decorated json).2 _ spells _ decorates).2, rfl⟩

end Json

end ShapeCheck
