import Mathlib.Data.List.Chain
import ShapeCheck.Json.Draft
import ShapeCheck.Proofs.Relaxed.Lexing

set_option autoImplicit false

/-! # Lexemes

A text whose tokens are not broken consists of lexemes, which are tokens with their spellings, and of white space
between them. Where no value stands next to another one the lexemes of a text can be moved apart or together
without a change to its tokens.

Main facts: `Lexeme.lexToken_append` (a lexeme is read in front of any text that does not go on with it),
`hasTokens_woven` (the tokens of a text that consists of lexemes) and `exists_woven` (a text without broken tokens
consists of lexemes).
-/

namespace ShapeCheck

namespace Json

/-! ## Kinds of tokens -/

namespace Token

/-- A value ends with the token. -/
def endsValue : Token → Bool
  | .null | .bool _ | .number _ | .string _ | .closeArray | .closeObject => true
  | _ => false

/-- A value starts with the token. -/
def startsValue : Token → Bool
  | .null | .bool _ | .number _ | .string _ | .openArray | .openObject => true
  | _ => false

/-- An array or object ends with the token. -/
def closes : Token → Bool
  | .closeArray | .closeObject => true
  | _ => false

/-- Something has to follow the token. -/
def separates : Token → Bool
  | .comma | .colon => true
  | _ => false

/-- The second token may stand behind the first one: no value behind another one, and no end of an array or
object behind a comma or colon. -/
def IsFollowedBy (a b : Token) : Prop :=
  (a.endsValue = true → b.startsValue = false) ∧ (a.separates = true → b.closes = false)

theorem endsValue_of_isNumber {token : Token} (number : token.isNumber = true) : token.endsValue = true := by
  cases token with
  | number _ => rfl
  | _ => cases number

theorem not_isNumber_of_startsValue {token : Token} (noValue : token.startsValue = false) :
    token.isNumber = false := by
  cases token with
  | number _ => cases noValue
  | _ => rfl

end Token

/-! ## Lexemes -/

/-- A token that is not broken, with its spelling. -/
structure Lexeme where
  first : Char
  rest : List Char
  token : Token
  reads : lexToken first rest = (token, [])
  whole : token.isBroken = false

namespace Lexeme

/-- The characters of a lexeme. -/
def spelling (lexeme : Lexeme) : List Char := lexeme.first :: lexeme.rest

variable (lexeme : Lexeme)

theorem isSpelled : IsSpelled lexeme.first lexeme.rest lexeme.token := by
  obtain ⟨part, split, spelled, -⟩ := lexToken_eq lexeme.reads lexeme.whole
  rw [List.append_nil] at split
  exact split ▸ spelled

theorem lexToken_append {tail : List Char} (stops : lexeme.token.isNumber = true → Stops tail) :
    lexToken lexeme.first (lexeme.rest ++ tail) = (lexeme.token, tail) := by
  obtain ⟨part, split, -, -, again⟩ := lexToken_eq lexeme.reads lexeme.whole
  rw [List.append_nil] at split
  exact split ▸ again tail stops

/-- A lexeme that starts with a quote is a string. -/
theorem closesString (quote : lexeme.first = '"') : ClosesString .string lexeme.rest := by
  have spelled := lexeme.isSpelled
  obtain ⟨c, part, token, reads, whole⟩ := lexeme
  cases spelled with
  | mark listed => simp [show c = '"' from quote, marks] at listed
  | string _ closes => exact closes
  | scalar all _ =>
    have first := all c List.mem_cons_self
    rw [show c = '"' from quote] at first
    cases first

/-- A lexeme that is no string is a mark, or a word or numeral. -/
theorem rest_eq_nil_or_scalar (noQuote : lexeme.first ≠ '"') :
    lexeme.rest = [] ∨ ∀ d ∈ lexeme.spelling, isScalarChar d = true := by
  have spelled := lexeme.isSpelled
  obtain ⟨c, part, token, reads, whole⟩ := lexeme
  cases spelled with
  | mark _ => exact .inl rfl
  | string quote _ => exact absurd quote noQuote
  | scalar all _ => exact .inr all

/-- A character that starts no token starts no lexeme. -/
theorem first_ne {c : Char} (breaks : ∀ text, (lexToken c text).1.isBroken = true) : lexeme.first ≠ c := by
  rintro rfl
  have broken := breaks lexeme.rest
  rw [lexeme.reads, lexeme.whole] at broken
  cases broken

/-- No white space starts a lexeme. -/
theorem isSpace_first : isSpace lexeme.first = false := by
  have blank := lexeme.first_ne (c := ' ') fun _ => rfl
  have line := lexeme.first_ne (c := '\n') fun _ => rfl
  have tab := lexeme.first_ne (c := '\t') fun _ => rfl
  have carriage := lexeme.first_ne (c := '\r') fun _ => rfl
  simp [isSpace, blank, line, tab, carriage]

/-- A numeral goes on with a numeral only. -/
theorem continuesNumeral_first (other : lexeme.token.isNumber = false) :
    continuesNumeral lexeme.first = false := by
  have point := lexeme.first_ne (c := '.') fun _ => rfl
  have small := lexeme.first_ne (c := 'e') fun _ => rfl
  have large := lexeme.first_ne (c := 'E') fun _ => rfl
  have digit : lexeme.first.isDigit = false := by
    by_contra digit
    rw [Bool.not_eq_false] at digit
    have reads := lexeme.reads
    rw [lexToken_digit digit] at reads
    obtain ⟨isNumber, -⟩ := takes_lexNumeral reads lexeme.whole
    rw [other] at isNumber
    cases isNumber
  simp [continuesNumeral, digit, point, small, large]

end Lexeme

/-- What is read off a text is a lexeme. -/
theorem exists_lexeme {c : Char} {text rest : List Char} {token : Token}
    (read : lexToken c text = (token, rest)) (whole : token.isBroken = false) :
    ∃ lexeme : Lexeme, lexeme.first = c ∧ lexeme.token = token ∧ text = lexeme.rest ++ rest := by
  obtain ⟨part, split, -, -, again⟩ := lexToken_eq read whole
  have alone := again [] fun _ => stops_nil
  rw [List.append_nil] at alone
  exact ⟨⟨c, part, token, alone, whole⟩, rfl, rfl, split⟩

/-! ## Texts -/

/-- The text is white space. -/
def IsSpaces (text : List Char) : Prop := ∀ c ∈ text, isSpace c = true

theorem isSpace_iff {c : Char} : isSpace c = true ↔ ((c = ' ' ∨ c = '\n') ∨ c = '\t') ∨ c = '\r' := by
  simp [isSpace]

/-- A text consists of lexemes, with gaps of some kind between them and at both ends. -/
inductive Woven (IsGap : List Char → Prop) : List Lexeme → List Char → Prop
  | nil {gap : List Char} (h : IsGap gap) : Woven IsGap [] gap
  | cons {gap text : List Char} {lexeme : Lexeme} {lexemes : List Lexeme} (h : IsGap gap)
    (rest : Woven IsGap lexemes text) : Woven IsGap (lexeme :: lexemes) (gap ++ (lexeme.spelling ++ text))

namespace Woven

variable {lexemes : List Lexeme} {text : List Char}

theorem space {c : Char} (h : isSpace c = true) (woven : Woven IsSpaces lexemes text) :
    Woven IsSpaces lexemes (c :: text) := by
  cases woven with
  | nil spaces => exact .nil (List.forall_mem_cons.2 ⟨h, spaces⟩)
  | @cons gap text lexeme lexemes spaces rest =>
    have longer : IsSpaces (c :: gap) := List.forall_mem_cons.2 ⟨h, spaces⟩
    exact .cons longer rest

theorem spaces {gap : List Char} (h : IsSpaces gap) (woven : Woven IsSpaces lexemes text) :
    Woven IsSpaces lexemes (gap ++ text) := by
  induction gap with
  | nil => exact woven
  | cons c gap ih =>
    obtain ⟨first, others⟩ := List.forall_mem_cons.1 h
    exact (ih others).space first

theorem lexeme {lexeme : Lexeme} (woven : Woven IsSpaces lexemes text) :
    Woven IsSpaces (lexeme :: lexemes) (lexeme.spelling ++ text) := by
  have empty : IsSpaces [] := nofun
  exact .cons empty woven

theorem eq_nil (woven : Woven IsSpaces lexemes []) : lexemes = [] := by
  generalize none : [] = text at woven
  cases woven with
  | nil _ => rfl
  | cons _ _ => simp [Lexeme.spelling] at none

theorem of_space {c : Char} (h : isSpace c = true) (woven : Woven IsSpaces lexemes (c :: text)) :
    Woven IsSpaces lexemes text := by
  generalize whole : c :: text = chars at woven
  cases woven with
  | nil spaces =>
    rw [← whole] at spaces
    exact .nil (List.forall_mem_cons.1 spaces).2
  | @cons gap chars lexeme lexemes spaces rest =>
    cases gap with
    | nil =>
      have visible := lexeme.isSpace_first
      rw [← (List.cons.inj whole).1, h] at visible
      cases visible
    | cons d gap =>
      obtain ⟨rfl, rfl⟩ := List.cons.inj whole
      have others : IsSpaces gap := (List.forall_mem_cons.1 spaces).2
      exact .cons others rest

theorem of_spaces {gap : List Char} (h : IsSpaces gap) (woven : Woven IsSpaces lexemes (gap ++ text)) :
    Woven IsSpaces lexemes text := by
  induction gap with
  | nil => exact woven
  | cons c gap ih =>
    obtain ⟨first, others⟩ := List.forall_mem_cons.1 h
    exact ih others (woven.of_space first)

/-- What is no white space starts the first lexeme. -/
theorem exists_of_cons {c : Char} (h : isSpace c = false) (woven : Woven IsSpaces lexemes (c :: text)) :
    ∃ lexeme others rest, lexemes = lexeme :: others ∧ lexeme.first = c ∧ text = lexeme.rest ++ rest ∧
      Woven IsSpaces others rest := by
  generalize whole : c :: text = chars at woven
  cases woven with
  | nil spaces =>
    rw [← whole] at spaces
    rw [spaces c List.mem_cons_self] at h
    cases h
  | @cons gap chars lexeme others spaces rest =>
    cases gap with
    | nil =>
      obtain ⟨same, behind⟩ := List.cons.inj whole
      exact ⟨lexeme, others, chars, rfl, same.symm, behind, rest⟩
    | cons d gap =>
      rw [(List.cons.inj whole).1, spaces d List.mem_cons_self] at h
      cases h

theorem stops (woven : Woven IsSpaces lexemes text)
    (other : ∀ lexeme ∈ lexemes.head?, lexeme.token.isNumber = false) : Stops text := by
  have space {c : Char} (h : isSpace c = true) : continuesNumeral c = false := by
    rcases isSpace_iff.1 h with ((rfl | rfl) | rfl) | rfl <;> decide
  cases woven with
  | nil spaces =>
    intro c first
    exact space (spaces c (List.mem_of_mem_head? first))
  | @cons gap text lexeme lexemes spaces rest =>
    cases gap with
    | nil => exact stops_cons.2 (lexeme.continuesNumeral_first (other lexeme rfl))
    | cons c gap => exact stops_cons.2 (space (spaces c List.mem_cons_self))

end Woven

/-- The tokens of a text, read with any fuel that is enough. -/
def HasTokens (text : List Char) (ts : List Token) : Prop :=
  ∀ fuel, text.length ≤ fuel → tokensWithin fuel text = ts

theorem hasTokens_nil : HasTokens [] [] := by
  intro fuel _
  cases fuel <;> rfl

namespace HasTokens

variable {text : List Char} {ts : List Token}

theorem tokens_eq (h : HasTokens text ts) : tokens (String.ofList text) = ts := by
  rw [tokens, String.toList_ofList]
  exact h _ le_rfl

theorem spaces {gap : List Char} (blank : IsSpaces gap) (h : HasTokens text ts) :
    HasTokens (gap ++ text) ts := by
  induction gap with
  | nil => exact h
  | cons c gap ih =>
    obtain ⟨first, others⟩ := List.forall_mem_cons.1 blank
    intro fuel enough
    cases fuel with
    | zero => simp at enough
    | succ fuel =>
      rw [List.cons_append, tokensWithin, if_pos first]
      exact ih others fuel (by simpa using enough)

theorem lexeme {lexeme : Lexeme} (stops : lexeme.token.isNumber = true → Stops text)
    (h : HasTokens text ts) : HasTokens (lexeme.spelling ++ text) (lexeme.token :: ts) := by
  intro fuel enough
  rw [Lexeme.spelling, List.cons_append] at enough ⊢
  cases fuel with
  | zero => simp at enough
  | succ fuel =>
    rw [tokensWithin, if_neg (by simp [lexeme.isSpace_first]), lexeme.lexToken_append stops]
    rw [List.length_cons, List.length_append] at enough
    exact congrArg (lexeme.token :: ·) (h fuel (by omega))

end HasTokens

/-- No value stands next to another one. -/
def Apart (ts : List Token) : Prop := ts.IsChain fun a b => a.endsValue = true → b.startsValue = false

/-- The tokens of a text are those of the lexemes of which it consists. -/
theorem hasTokens_woven {lexemes : List Lexeme} {text : List Char} (woven : Woven IsSpaces lexemes text)
    (apart : Apart (lexemes.map Lexeme.token)) : HasTokens text (lexemes.map Lexeme.token) := by
  induction woven with
  | @nil gap spaces =>
    have whole := hasTokens_nil.spaces spaces
    rwa [List.append_nil] at whole
  | @cons gap text lexeme lexemes spaces woven ih =>
    obtain ⟨next, apart⟩ := List.isChain_cons.1 apart
    refine HasTokens.spaces spaces (HasTokens.lexeme (fun isNumber => ?_) (ih apart))
    -- behind a numeral no value starts, so that the numeral does not go on
    refine woven.stops fun other first => Token.not_isNumber_of_startsValue ?_
    refine next other.token ?_ (Token.endsValue_of_isNumber isNumber)
    rw [List.head?_map, Option.mem_def.1 first]
    rfl

theorem exists_woven (fuel : Nat) {text : List Char} (enough : text.length ≤ fuel)
    (whole : ∀ token ∈ tokensWithin fuel text, token.isBroken = false) :
    ∃ lexemes, Woven IsSpaces lexemes text ∧ tokensWithin fuel text = lexemes.map Lexeme.token := by
  induction fuel generalizing text with
  | zero =>
    obtain rfl : text = [] := List.length_eq_zero_iff.1 (by omega)
    exact ⟨[], .nil nofun, rfl⟩
  | succ fuel ih =>
    cases text with
    | nil => exact ⟨[], .nil nofun, rfl⟩
    | cons c text =>
      rw [tokensWithin] at whole ⊢
      rw [List.length_cons] at enough
      split at whole
      · rename_i space
        obtain ⟨lexemes, woven, same⟩ := ih (by omega) whole
        rw [if_pos space]
        exact ⟨lexemes, woven.space space, same⟩
      · rename_i noSpace
        rw [if_neg noSpace]
        cases read : lexToken c text with
        | mk token rest =>
          rw [read] at whole
          replace whole : ∀ t ∈ token :: tokensWithin fuel rest, t.isBroken = false := whole
          obtain ⟨unbroken, others⟩ := List.forall_mem_cons.1 whole
          obtain ⟨lexeme, rfl, rfl, rfl⟩ := exists_lexeme read unbroken
          rw [List.length_append] at enough
          obtain ⟨lexemes, woven, same⟩ := ih (by omega) others
          exact ⟨lexeme :: lexemes, woven.lexeme, congrArg _ same⟩

/-! ## Sequences of tokens -/

/-- The tokens spell a value. -/
def AreJson (ts : List Token) : Prop := ∃ draft, ts.foldl Draft.step (.value []) = .complete draft

namespace Draft

namespace State

/-- The machine has not stopped. -/
def IsLive : State → Prop
  | .finished _ _ => False
  | _ => True

/-- No value may come next. -/
def IsBehindValue : State → Prop
  | .afterItem _ _ | .afterKey _ _ _ | .afterEntry _ _ | .complete _ => True
  | _ => False

/-- The machine waits for a value, or for a key of an object that has entries. -/
def IsBehindSeparator : State → Prop
  | .value _ => True
  | .key entries _ => entries ≠ []
  | _ => False

/-- An object of which an entry has been read has entries. -/
def IsSound : State → Prop
  | .afterEntry entries _ => entries ≠ []
  | _ => True

end State

theorem isSound_settle (draft : Draft) (stack : List Open) :
    (settle draft stack).IsSound ∧ (settle draft stack).IsBehindValue := by
  match stack with
  | [] => exact ⟨trivial, trivial⟩
  | .array _ :: _ => exact ⟨trivial, trivial⟩
  | .object _ _ :: _ => exact ⟨List.cons_ne_nil _ _, trivial⟩

theorem not_isLive_breakAt (why : Break) (state : State) : ¬ (breakAt why state).IsLive := by
  cases state <;> exact id

/-- What a step by which the machine does not stop says about the token, and about the states before and after
it. -/
structure IsStep (state : State) (token : Token) (next : State) : Prop where
  whole : token.isBroken = false
  sound : next.IsSound
  behindValue : token.endsValue = true → next.IsBehindValue
  behindSeparator : token.separates = true → next.IsBehindSeparator
  noValue : state.IsBehindValue → token.startsValue = false
  noEnd : state.IsBehindSeparator → token.closes = false

theorem isStep_takeValue {state : State} {stack : List Open} {token : Token}
    (live : (takeValue stack token).IsLive) (before : ¬ state.IsBehindValue) :
    IsStep state token (takeValue stack token) := by
  have settled (draft : Draft) := isSound_settle draft stack
  have noValue : state.IsBehindValue → token.startsValue = false := fun h => absurd h before
  cases token with
  | null | bool _ | number _ | string _ =>
    exact ⟨rfl, (settled _).1, fun _ => (settled _).2, nofun, noValue, fun _ => rfl⟩
  | openArray | openObject => exact ⟨rfl, trivial, nofun, nofun, noValue, fun _ => rfl⟩
  | closeArray | closeObject | comma | colon | brokenString _ | broken _ => exact False.elim live

/-- A step that ends an array or object. -/
theorem isStep_settle {state : State} {token : Token} (closes : token.closes = true)
    (before : ¬ state.IsBehindSeparator) (draft : Draft) (stack : List Open) :
    IsStep state token (settle draft stack) := by
  obtain ⟨sound, behind⟩ := isSound_settle draft stack
  have noEnd : state.IsBehindSeparator → token.closes = false := fun h => absurd h before
  cases token with
  | closeArray | closeObject => exact ⟨rfl, sound, fun _ => behind, nofun, fun _ => rfl, noEnd⟩
  | _ => cases closes

theorem isStep_step {state : State} {token : Token} (sound : state.IsSound) (live : (step state token).IsLive) :
    IsStep state token (step state token) := by
  unfold step at live ⊢
  split at live
  -- a value, or the first item of an array
  · exact isStep_takeValue live id
  · exact isStep_settle rfl id _ _
  · exact isStep_takeValue live id
  -- behind an item
  · exact ⟨rfl, trivial, nofun, fun _ => trivial, fun _ => rfl, nofun⟩
  · exact isStep_settle rfl id _ _
  -- where a key may stand
  · exact ⟨rfl, trivial, fun _ => trivial, nofun, nofun, fun _ => rfl⟩
  · refine isStep_settle rfl ?_ _ _
    -- the object has no entries
    exact fun some => some rfl
  · exact absurd live (not_isLive_breakAt _ _)
  -- behind a key, and behind an entry
  · exact ⟨rfl, trivial, nofun, fun _ => trivial, fun _ => rfl, nofun⟩
  · exact ⟨rfl, trivial, nofun, fun _ => sound, fun _ => rfl, nofun⟩
  · exact isStep_settle rfl id _ _
  · exact absurd live (not_isLive_breakAt _ _)

/-- A machine that has stopped takes no further token. -/
theorem foldl_step_finished (draft : Draft) (trailing : Bool) (ts : List Token) :
    ts.foldl step (.finished draft trailing) = .finished draft trailing := by
  induction ts with
  | nil => rfl
  | cons token rest ih => exact ih

theorem isLive_of_foldl {state : State} {ts : List Token} {draft : Draft}
    (done : ts.foldl step state = .complete draft) : state.IsLive := by
  cases state with
  | finished d trailing => rw [foldl_step_finished] at done; cases done
  | _ => trivial

theorem isChain_of_foldl {state : State} {ts : List Token} {draft : Draft} (sound : state.IsSound)
    (done : ts.foldl step state = .complete draft) :
    (∀ token ∈ ts, token.isBroken = false) ∧ ts.IsChain Token.IsFollowedBy := by
  induction ts generalizing state with
  | nil => exact ⟨nofun, .nil⟩
  | cons token rest ih =>
    rw [List.foldl_cons] at done
    have first := isStep_step sound (isLive_of_foldl done)
    obtain ⟨whole, chain⟩ := ih first.sound done
    refine ⟨List.forall_mem_cons.2 ⟨first.whole, whole⟩, List.isChain_cons.2 ⟨fun next second => ?_, chain⟩⟩
    obtain ⟨others, rfl⟩ := List.head?_eq_some_iff.1 second
    have step := isStep_step first.sound (isLive_of_foldl done)
    exact ⟨fun value => step.noValue (first.behindValue value),
      fun separator => step.noEnd (first.behindSeparator separator)⟩

end Draft

/-- In a text that spells a value no token is broken, and each may stand behind the one before. -/
theorem AreJson.isChain {ts : List Token} (json : AreJson ts) :
    (∀ token ∈ ts, token.isBroken = false) ∧ ts.IsChain Token.IsFollowedBy := by
  obtain ⟨draft, done⟩ := json
  have sound : (Draft.State.value []).IsSound := trivial
  exact Draft.isChain_of_foldl sound done

/-- Tokens that spell a value may stand where a comma waits for one. -/
theorem AreJson.isChain_comma {ts : List Token} (json : AreJson ts) :
    (.comma :: ts).IsChain Token.IsFollowedBy := by
  refine List.isChain_cons.2 ⟨fun token first => ?_, json.isChain.2⟩
  obtain ⟨rest, rfl⟩ := List.head?_eq_some_iff.1 first
  obtain ⟨draft, done⟩ := json
  have sound : (Draft.State.value []).IsSound := trivial
  have waits : (Draft.State.value []).IsBehindSeparator := trivial
  exact ⟨nofun, fun _ => (Draft.isStep_step sound (Draft.isLive_of_foldl done)).noEnd waits⟩

theorem AreJson.apart {ts : List Token} (json : AreJson ts) : Apart ts :=
  json.isChain.2.imp fun _ _ follows => follows.1

end Json

end ShapeCheck
