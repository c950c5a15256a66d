import ShapeCheck.Proofs.Naming.Brackets
import ShapeCheck.Proofs.Number.Numeral

set_option autoImplicit false

/-! # Forms of names

The name of a type that is neither a union nor an intersection spells the form of the type: a word, a
literal, the name of a definition, or brackets around the names of its parts. The form can be read off
the name, as long as definitions are named by identifiers; only the order of the members of objects is
lost.

Main facts: `Form.isPiece_core` (a form can be joined with others) and `Form.alike_of_core_eq` (forms
that are spelled alike are alike).
-/

namespace ShapeCheck

/-! ## Characters of identifiers -/

namespace Text

theorem isIdentifierTail_of_isAlphanum {c : Char} (h : c.isAlphanum = true) :
    isIdentifierTail c = true := by
  simp [isIdentifierTail, h]

/-- An identifier has no characters that may not continue one. -/
theorem isIdentifierTail_of_isIdentifier {s : String} (h : isIdentifier s = true) {c : Char}
    (inside : c ∈ s.toList) : isIdentifierTail c = true := by
  obtain ⟨d, rest, chars, head, tail⟩ := (isIdentifier_eq_true_iff s).1 h
  rw [chars] at inside
  rcases List.mem_cons.1 inside with rfl | inside
  · simp only [isIdentifierHead, Bool.or_eq_true] at head
    simp only [isIdentifierTail, Char.isAlphanum, Bool.or_eq_true]
    exact head.imp_left fun h => h.imp_left .inl
  · exact tail c inside

theorem ne_empty_of_isIdentifier {s : String} (h : isIdentifier s = true) : s ≠ "" := by
  rintro rfl
  revert h
  decide

theorem ne_of_isIdentifierTail {c d : Char} (h : isIdentifierTail c = true)
    (other : isIdentifierTail d = false) : c ≠ d := by
  rintro rfl
  rw [h] at other
  cases other

theorem isIdentifierHead_of_isDigit {c : Char} (h : c.isDigit = true) :
    isIdentifierHead c = false := by
  have codes : '0'.val.toNat = 48 ∧ '9'.val.toNat = 57 ∧ 'A'.val.toNat = 65 ∧
      'Z'.val.toNat = 90 ∧ 'a'.val.toNat = 97 ∧ 'z'.val.toNat = 122 ∧ '_'.val.toNat = 95 ∧
      '$'.val.toNat = 36 := by decide
  simp only [Char.isDigit, Bool.and_eq_true, decide_eq_true_iff, ge_iff_le,
    UInt32.le_iff_toNat_le] at h
  unfold isIdentifierHead Char.isAlpha Char.isUpper Char.isLower
  simp only [Bool.or_eq_false_iff, Bool.and_eq_false_iff, decide_eq_false_iff_not, ge_iff_le,
    UInt32.le_iff_toNat_le, beq_eq_false_iff_ne]
  refine ⟨⟨⟨by omega, by omega⟩, ?_⟩, ?_⟩ <;> rintro rfl <;> omega

theorem isMark_of_isIdentifierTail {c : Char} (h : isIdentifierTail c = true) : isMark c = false := by
  have marks : ∀ d ∈ '"' :: brackets.flatMap (fun pair => [pair.1, pair.2]),
      isIdentifierTail d = false := by decide
  by_contra mark
  rw [Bool.not_eq_false] at mark
  refine ne_of_isIdentifierTail h (marks c ?_) rfl
  simpa [isMark, brackets, or_assoc] using mark

/-- Identifiers are closed for all stops that may not continue them. -/
theorem Closed.of_isIdentifierTail {stops text : List Char}
    (free : ∀ c ∈ stops, isIdentifierTail c = false) (h : ∀ c ∈ text, isIdentifierTail c = true) :
    Closed stops text :=
  .of_chars fun c inside => ⟨isMark_of_isIdentifierTail (h c inside),
    fun stop => ne_of_isIdentifierTail (h c inside) (free c stop) rfl⟩

end Text

theorem isIdentifier_of_isPlainName {name : String} (h : isPlainName name = true) :
    Text.isIdentifier name = true := by
  simp only [isPlainName, Bool.and_eq_true] at h
  exact h.1.1

/-! ## Words -/

/-- The types that are named by a word of their own. -/
inductive Word
  | keyword (word : Keyword)
  | boolean (value : Bool)
  | buffer
  | view (kind : ViewKind)
  deriving DecidableEq

namespace Word

/-- The word. -/
def text : Word → String
  | keyword word => word.text
  | boolean value => toString value
  | buffer => "Buffer"
  | view kind => kind.constructorName

/-- All words. -/
def all : List Word :=
  Keyword.all.map keyword ++ [boolean true, boolean false, buffer] ++ ViewKind.all.map view

theorem mem_all (word : Word) : word ∈ all := by
  cases word with
  | keyword word => cases word <;> decide
  | boolean value => cases value <;> decide
  | buffer => decide
  | view kind => cases kind <;> decide

theorem text_injective {word word' : Word} (same : word.text = word'.text) : word = word' := by
  have distinct : (all.map text).Nodup := by decide
  exact List.inj_on_of_nodup_map distinct (mem_all word) (mem_all word') same

/-- A word is spelled with letters and digits, and starts with a letter. -/
theorem text_letters (word : Word) : ∃ c rest, word.text.toList = c :: rest ∧ c.isAlpha = true ∧
    ∀ d ∈ rest, d.isAlphanum = true := by
  have all : ∀ w ∈ all, (w.text.toList.head?.any Char.isAlpha &&
      w.text.toList.tail.all Char.isAlphanum) = true := by decide
  have here := all word (mem_all word)
  cases chars : word.text.toList with
  | nil => simp [chars] at here
  | cons c rest =>
    simp only [chars, List.head?_cons, Option.any_some, List.tail_cons, Bool.and_eq_true,
      List.all_eq_true] at here
    exact ⟨c, rest, rfl, here⟩

/-- A word is neither the name of a definition nor that of a number. -/
theorem text_reserved (word : Word) :
    isPlainName word.text = false ∧ word.text ∉ ["NaN", "Infinity"] := by
  have all : ∀ w ∈ all, isPlainName w.text = false ∧ w.text ∉ ["NaN", "Infinity"] := by
    decide
  exact all word (mem_all word)

end Word

/-! ## Names of definitions -/

/-- All definitions are named by identifiers. -/
def Arena.NamedByIdentifiers (arena : Arena) : Prop :=
  ∀ id definition, arena.definition? id = some definition →
    Text.isIdentifier definition.name = true

theorem two_le_length_filter {α : Type} {p : α → Bool} {l : List α} {i j : Nat} {a b : α}
    (less : i < j) (here : l[i]? = some a) (there : l[j]? = some b) (pa : p a = true)
    (pb : p b = true) : 2 ≤ (l.filter p).length := by
  have front : a ∈ (l.take j).filter p := by
    refine List.mem_filter.2 ⟨List.mem_of_getElem? (i := i) ?_, pa⟩
    rw [List.getElem?_take_of_lt less, here]
  have back : b ∈ (l.drop j).filter p := by
    refine List.mem_filter.2 ⟨List.mem_of_getElem? (i := 0) ?_, pb⟩
    rw [List.getElem?_drop, Nat.add_zero, there]
  have parts := congrArg (fun l => (List.filter p l).length) (List.take_append_drop j l)
  simp only [List.filter_append, List.length_append] at parts
  have := List.length_pos_of_mem front
  have := List.length_pos_of_mem back
  omega

namespace Arena

variable {arena : Arena}

/-- A name that is not shared leads to one definition. -/
theorem eq_of_not_isNameShared {id id' : DefinitionId} {definition definition' : Definition}
    (found : arena.definition? id = some definition)
    (found' : arena.definition? id' = some definition') (same : definition.name = definition'.name)
    (single : arena.isNameShared definition.name = false) : id = id' := by
  unfold definition? at found found'
  rw [← Array.getElem?_toList] at found found'
  have few : ¬ 2 ≤ (arena.definitions.toList.filter fun d => d.name == definition.name).length :=
    of_decide_eq_false single
  have named' : (definition'.name == definition.name) = true := by simp [same]
  rcases Nat.lt_trichotomy id.index id'.index with less | equal | greater
  · exact absurd (two_le_length_filter less found found' (by simp) named') few
  · cases id
    cases id'
    exact congrArg DefinitionId.mk equal
  · exact absurd (two_le_length_filter greater found' found named' (by simp)) few

/-- The name of a definition is a plain name of its own, or ends with its number. -/
theorem definitionName_cases (named : arena.NamedByIdentifiers) (id : DefinitionId) :
    (∃ definition, arena.definition? id = some definition ∧ isPlainName definition.name = true ∧
        arena.isNameShared definition.name = false ∧
          arena.definitionName id = definition.name) ∨
      ∃ base : String, (∀ c ∈ base.toList, Text.isIdentifierTail c = true) ∧
        arena.definitionName id = base ++ "@" ++ toString id.index := by
  unfold definitionName
  cases found : arena.definition? id with
  | none => exact .inr ⟨"", by simp, rfl⟩
  | some definition =>
    dsimp only
    split
    · rename_i single
      rw [Bool.and_eq_true, Bool.not_eq_true'] at single
      exact .inl ⟨definition, rfl, single.1, single.2, rfl⟩
    · exact .inr ⟨definition.name,
        fun _ => Text.isIdentifierTail_of_isIdentifier (named id definition found), rfl⟩

/-- A name without digits for its definition is not one with them. -/
theorem not_mem_at_of_isPlainName {name : String} (plain : isPlainName name = true) :
    '@' ∉ name.toList := fun inside =>
  Text.ne_of_isIdentifierTail
    (Text.isIdentifierTail_of_isIdentifier (isIdentifier_of_isPlainName plain) inside) (by decide) rfl

theorem mem_at_of_numbered {name base : String} {i : Nat}
    (same : name = base ++ "@" ++ toString i) : '@' ∈ name.toList := by
  rw [same]
  simp

/-- Definitions of one name are one. -/
theorem definitionName_injective (named : arena.NamedByIdentifiers) {id id' : DefinitionId}
    (same : arena.definitionName id = arena.definitionName id') : id = id' := by
  have closed {base : String} (plain : ∀ c ∈ base.toList, Text.isIdentifierTail c = true) :
      Text.Closed ['@'] base.toList := .of_isIdentifierTail (by decide) plain
  have ends : Text.Ends ['@'] '@' := .inl ⟨by decide, by decide⟩
  rcases definitionName_cases named id with
      ⟨definition, found, plain, single, name⟩ | ⟨base, plain, name⟩ <;>
    rcases definitionName_cases named id' with
      ⟨definition', found', plain', single', name'⟩ | ⟨base', plain', name'⟩ <;>
    rw [name, name'] at same
  · exact eq_of_not_isNameShared found found' same single
  · exact absurd (mem_at_of_numbered same) (not_mem_at_of_isPlainName plain)
  · exact absurd (mem_at_of_numbered same.symm) (not_mem_at_of_isPlainName plain')
  · have chars := congrArg String.toList same
    simp only [String.toList_append, List.append_assoc] at chars
    obtain ⟨-, -, digits⟩ := (closed plain).split (closed plain') ends ends chars
    change (Nat.repr id.index).toList = (Nat.repr id'.index).toList at digits
    rw [Nat.toList_repr, Nat.toList_repr] at digits
    have read := congrArg (fun digits => Nat.ofDigitChars 10 digits 0) digits
    simp only [Nat.ofDigitChars_ten_toDigits] at read
    cases id
    cases id'
    exact congrArg DefinitionId.mk read

end Arena

/-! ## Forms -/

/-- What is said about the value under a key. -/
inductive Content
  | untyped
  | method
  | typed (name : String)
  deriving DecidableEq

/-- A member of an object, with the name of its type. -/
structure Member where
  key : String
  optional : Bool
  content : Content
  deriving DecidableEq

/-- What a name spells: a word, a literal, a definition, or brackets around the names of parts. -/
inductive Form
  | word (word : Word)
  | number (value : Double)
  | quoted (value : String)
  | definition (id : DefinitionId)
  | array (element : String)
  /-- The names of the positions, each with a mark whether it is optional. -/
  | tuple (elements : List (String × Bool))
  | object (members : List Member) (index : Option String)

/-- The mark of what is optional. -/
def optionalMark (optional : Bool) : String := if optional then "?" else ""

/-- How the value under a key is spelled. -/
def Content.text : Content → String
  | untyped => ""
  | method => "()"
  | typed name => ": " ++ name

/-- How a member is spelled. -/
def Member.text (member : Member) : String :=
  keyLabel member.key ++ (optionalMark member.optional ++ member.content.text)

/-- How the type of the values under all other keys is spelled. -/
def indexText (name : String) : String := "[key: string]: " ++ name

theorem toList_indexText (name : String) :
    (indexText name).toList = "[key: string]: ".toList ++ name.toList :=
  String.toList_append

namespace Form

/-- How a form is spelled, without the mark of a type that is checked for superfluous keys. -/
def core (arena : Arena) : Form → String
  | word w => w.text
  | number value => value.text
  | quoted value => Text.quote value
  | definition id => arena.definitionName id
  | array element => "Array<" ++ element ++ ">"
  | tuple elements =>
    "[" ++ String.intercalate ", " (elements.map fun e => e.1 ++ optionalMark e.2) ++ "]"
  | object members index =>
    "\x7b" ++ String.intercalate "; "
      (Text.sort (members.map Member.text) ++ index.toList.map indexText) ++ "\x7d"

/-- The form has a mark if the type is checked for superfluous keys. -/
def isMarked : Form → Bool
  | definition _ | object _ _ => true
  | _ => false

/-- The names of the parts. -/
def parts : Form → List String
  | array element => [element]
  | tuple elements => elements.map Prod.fst
  | object members index =>
    members.filterMap (fun member => match member.content with
      | .typed name => some name
      | _ => none) ++ index.toList
  | _ => []

/-- The forms agree up to the order of members. -/
def Alike : Form → Form → Prop
  | number value, form => ∃ value', form = number value' ∧ value.text = value'.text
  | object members index, form =>
    ∃ members', form = object members' index ∧ ∀ member, member ∈ members ↔ member ∈ members'
  | form, form' => form = form'

end Form

/-! ## Pieces -/

/-- What no type name has outside of brackets. -/
def typeStops : List Char := [',', ';', ':', '?', '(']

/-- What no name of a form has outside of brackets. -/
def formStops : List Char := ' ' :: '|' :: '&' :: typeStops

theorem typeStops_subset : ∀ c ∈ typeStops, c ∈ formStops := by decide

theorem formStops_free : ∀ c ∈ formStops, Text.isIdentifierTail c = false := by decide

namespace Form

variable {arena : Arena} (named : arena.NamedByIdentifiers)

theorem mem_word {w : Word} {c : Char} (h : c ∈ w.text.toList) : Text.isIdentifierTail c = true := by
  obtain ⟨d, rest, chars, first, others⟩ := w.text_letters
  refine Text.isIdentifierTail_of_isAlphanum ?_
  rw [chars] at h
  rcases List.mem_cons.1 h with rfl | inside
  · simp [Char.isAlphanum, first]
  · exact others c inside

theorem isPiece_word (w : Word) : Text.IsPiece formStops w.text := by
  refine ⟨fun empty => ?_, .of_isIdentifierTail formStops_free fun _ => mem_word⟩
  obtain ⟨c, rest, chars, -⟩ := w.text_letters
  rw [empty] at chars
  cases chars

theorem mem_number {x : Double} {c : Char} (h : c ∈ x.text.toList) :
    Text.isMark c = false ∧ c ∉ formStops ∧ c ≠ '@' := by
  rcases Double.mem_text h with letter | rfl | rfl
  · have tail := Text.isIdentifierTail_of_isAlphanum letter
    exact ⟨Text.isMark_of_isIdentifierTail tail,
      fun stop => Text.ne_of_isIdentifierTail tail (formStops_free c stop) rfl,
      Text.ne_of_isIdentifierTail tail (by decide)⟩
  · decide
  · decide

theorem isPiece_number (x : Double) : Text.IsPiece formStops x.text := by
  refine ⟨fun empty => ?_, .of_chars fun c inside => ⟨(mem_number inside).1, (mem_number inside).2.1⟩⟩
  rcases x.text_start with word | ⟨c, rest, chars, -⟩
  · rw [empty] at word
    revert word
    decide
  · rw [empty] at chars
    cases chars

section
include named

theorem mem_definition {id : DefinitionId} {c : Char} (h : c ∈ (arena.definitionName id).toList) :
    Text.isIdentifierTail c = true ∨ c = '@' := by
  rcases arena.definitionName_cases named id with
    ⟨definition, -, plain, -, name⟩ | ⟨base, plain, name⟩ <;> rw [name] at h
  · exact .inl (Text.isIdentifierTail_of_isIdentifier (isIdentifier_of_isPlainName plain) h)
  · rw [String.toList_append, String.toList_append, List.mem_append, List.mem_append] at h
    rcases h with (inside | at_) | inside
    · exact .inl (plain c inside)
    · exact .inr (List.mem_singleton.1 at_)
    · change c ∈ (Nat.repr id.index).toList at inside
      rw [Nat.toList_repr] at inside
      have digit := Decimal.isDigit_of_mem_digitsOf inside
      exact .inl (Text.isIdentifierTail_of_isAlphanum (by simp [Char.isAlphanum, digit]))

theorem isPiece_definition (id : DefinitionId) :
    Text.IsPiece formStops (arena.definitionName id) := by
  refine ⟨fun empty => ?_, .of_chars fun c inside => ?_⟩
  · rcases arena.definitionName_cases named id with
      ⟨definition, -, plain, -, name⟩ | ⟨base, -, name⟩
    · exact Text.ne_empty_of_isIdentifier (isIdentifier_of_isPlainName plain) (name.symm.trans empty)
    · have marked := Arena.mem_at_of_numbered name
      rw [empty] at marked
      cases marked
  · rcases mem_definition named inside with tail | rfl
    · exact ⟨Text.isMark_of_isIdentifierTail tail,
        fun stop => Text.ne_of_isIdentifierTail tail (formStops_free c stop) rfl⟩
    · decide

end

theorem closed_optionalMark {stops : List Char} (free : '?' ∉ stops) (optional : Bool) :
    Text.Closed stops (optionalMark optional).toList := by
  cases optional with
  | false => exact .nil
  | true => exact .char rfl free .nil

/-- The name of a position with its mark is a piece of a tuple. -/
theorem isPiece_element {element : String × Bool} (h : Text.IsPiece typeStops element.1) :
    Text.IsPiece [','] (element.1 ++ optionalMark element.2) := by
  refine ⟨fun empty => h.1 (String.append_eq_empty_iff.1 empty).1, ?_⟩
  rw [String.toList_append]
  exact (h.2.mono (by decide)).append (closed_optionalMark (by decide) _)

theorem closed_keyLabel {stops : List Char} (free : ∀ c ∈ stops, Text.isIdentifierTail c = false)
    (key : String) : Text.Closed stops (keyLabel key).toList := by
  unfold keyLabel
  split
  · rename_i identifier
    exact .of_isIdentifierTail free fun _ => Text.isIdentifierTail_of_isIdentifier identifier
  · exact .quotation key

theorem quote_ne_empty (s : String) : Text.quote s ≠ "" := by
  intro empty
  have chars := congrArg String.toList empty
  rw [Text.toList_quote] at chars
  cases chars

theorem keyLabel_ne_empty (key : String) : keyLabel key ≠ "" := by
  unfold keyLabel
  split
  · exact Text.ne_empty_of_isIdentifier ‹_›
  · exact quote_ne_empty key

/-- A member is a piece of an object. -/
theorem isPiece_member {member : Member}
    (h : ∀ name, member.content = .typed name → Text.IsPiece typeStops name) :
    Text.IsPiece [';'] member.text := by
  refine ⟨fun empty => keyLabel_ne_empty _ (String.append_eq_empty_iff.1 empty).1, ?_⟩
  rw [Member.text, String.toList_append, String.toList_append]
  refine (closed_keyLabel (by decide) _).append ((closed_optionalMark (by decide) _).append ?_)
  cases content : member.content with
  | untyped => exact .nil
  | method => exact .of_chars (by decide)
  | typed name =>
    rw [Content.text, String.toList_append]
    exact (Text.Closed.of_chars (by decide)).append ((h name content).2.mono (by decide))

/-- The type of the values under all other keys is a piece of an object. -/
theorem isPiece_indexText {name : String} (h : Text.IsPiece typeStops name) :
    Text.IsPiece [';'] (indexText name) := by
  refine ⟨fun empty => h.1 (String.append_eq_empty_iff.1 empty).2, ?_⟩
  rw [toList_indexText]
  have listed : ('[', ']') ∈ Text.brackets := by decide
  have key : Text.Closed [';'] ('[' :: ("key: string".toList ++ ']' :: ": ".toList)) :=
    .bracketed listed (.of_chars (by decide)) (.of_chars (by decide))
  exact Text.Closed.append key (h.2.mono (by decide))

theorem isPiece_objectPiece {members : List Member} {index : Option String}
    (parts : ∀ part ∈ (object members index).parts, Text.IsPiece typeStops part) {text : String}
    (inside : text ∈ Text.sort (members.map Member.text) ++ index.toList.map indexText) :
    Text.IsPiece [';'] text := by
  rcases List.mem_append.1 inside with inside | inside
  · rw [Text.sort, List.mem_mergeSort] at inside
    obtain ⟨member, listed, rfl⟩ := List.mem_map.1 inside
    refine isPiece_member fun name typed => parts name (List.mem_append_left _ ?_)
    exact List.mem_filterMap.2 ⟨member, listed, by rw [typed]⟩
  · obtain ⟨name, listed, rfl⟩ := List.mem_map.1 inside
    exact isPiece_indexText (parts name (List.mem_append_right _ listed))

theorem closed_brackets {before inner : String} (pair : Char × Char)
    (listed : pair ∈ Text.brackets) (h : Text.Closed formStops before.toList)
    (h' : Text.Closed [] inner.toList) :
    Text.Closed formStops (before.toList ++ pair.1 :: (inner.toList ++ [pair.2])) :=
  h.append (.bracket listed h')

include named in
/-- A form whose parts are named is spelled as a piece. -/
theorem isPiece_core {form : Form} (parts : ∀ part ∈ form.parts, Text.IsPiece typeStops part) :
    Text.IsPiece formStops (form.core arena) := by
  cases form with
  | word w => exact isPiece_word w
  | number x => exact isPiece_number x
  | quoted s => exact ⟨quote_ne_empty s, .quotation s⟩
  | definition id => exact isPiece_definition named id
  | array element =>
    have chars : (core arena (.array element)).toList =
        "Array".toList ++ '<' :: (element.toList ++ ['>']) := by simp [core]
    refine ⟨fun empty => by simp [empty] at chars, ?_⟩
    rw [chars]
    exact closed_brackets ('<', '>') (by decide) (.of_chars (by decide))
      ((parts element (by simp [Form.parts])).2.mono (by simp))
  | tuple elements =>
    let inner := ", ".intercalate (elements.map fun e => e.1 ++ optionalMark e.2)
    have chars : (core arena (.tuple elements)).toList =
        "".toList ++ '[' :: (inner.toList ++ [']']) := by simp [core, inner]
    refine ⟨fun empty => by simp [empty] at chars, ?_⟩
    rw [chars]
    refine closed_brackets ('[', ']') (by decide) .nil
      (Text.closed_intercalate (.of_chars (by decide)) fun text inside => ?_)
    obtain ⟨element, listed, rfl⟩ := List.mem_map.1 inside
    exact (isPiece_element (parts element.1 (List.mem_map_of_mem listed))).2.mono (by simp)
  | object members index =>
    let inner := "; ".intercalate
      (Text.sort (members.map Member.text) ++ index.toList.map indexText)
    have chars : (core arena (.object members index)).toList =
        "".toList ++ '\x7b' :: (inner.toList ++ ['\x7d']) := by simp [core, inner]
    refine ⟨fun empty => by simp [empty] at chars, ?_⟩
    rw [chars]
    exact closed_brackets ('\x7b', '\x7d') (by decide) .nil
      (Text.closed_intercalate (.of_chars (by decide)) fun text inside =>
        (isPiece_objectPiece parts inside).2.mono (by simp))

end Form

end ShapeCheck
