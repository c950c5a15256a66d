import ShapeCheck.Proofs.Naming.Forms

set_option autoImplicit false

/-! # Forms read off names

The first bracket or quotation in the spelling of a form tells what kind of form it is, and the parts
stand between separators that are not in their names. Forms without brackets and quotations are told
apart by their characters.

Main fact: `Form.alike_of_core_eq`.
-/

namespace ShapeCheck

/-! ## Kinds of forms -/

/-- The first character of a bracket or a quotation. -/
def Text.firstMark (s : String) : Option Char := s.toList.find? isMark

theorem Text.firstMark_eq_none {s : String} (h : ∀ c ∈ s.toList, isMark c = false) :
    firstMark s = none :=
  List.find?_eq_none.2 fun c inside => by simp [h c inside]

namespace Form

/-- The first character of a bracket or a quotation in the spelling of a form. -/
def mark : Form → Option Char
  | quoted _ => some '"'
  | array _ => some '<'
  | tuple _ => some '['
  | object _ _ => some '\x7b'
  | _ => none

variable {arena : Arena} (named : arena.NamedByIdentifiers)

include named in
theorem firstMark_core (form : Form) : Text.firstMark (form.core arena) = form.mark := by
  cases form with
  | word w =>
    exact Text.firstMark_eq_none fun c inside => Text.isMark_of_isIdentifierTail (mem_word inside)
  | number x => exact Text.firstMark_eq_none fun c inside => (mem_number inside).1
  | definition id =>
    refine Text.firstMark_eq_none fun c inside => ?_
    rcases mem_definition named inside with tail | rfl
    · exact Text.isMark_of_isIdentifierTail tail
    · decide
  | quoted s =>
    rw [Text.firstMark, core, Text.toList_quote]
    rfl
  | array element => simp [Text.firstMark, core, mark, Text.isMark, Text.brackets]
  | tuple elements => simp [Text.firstMark, core, mark, Text.isMark, Text.brackets]
  | object members index =>
    simp [Text.firstMark, core, mark, Text.isMark, Text.brackets]

/-! ## Forms without brackets and quotations -/

theorem word_ne_number (w : Word) (x : Double) : w.text ≠ x.text := by
  intro same
  rcases x.text_start with word | ⟨c, rest, chars, start⟩
  · exact w.text_reserved.2 (same ▸ word)
  · obtain ⟨d, tail, chars', letter, -⟩ := w.text_letters
    rw [same, chars] at chars'
    obtain ⟨rfl, -⟩ := List.cons.inj chars'
    have head : Text.isIdentifierHead c = true := by simp [Text.isIdentifierHead, letter]
    rcases start with digit | rfl
    · rw [Text.isIdentifierHead_of_isDigit digit] at head
      cases head
    · revert head
      decide

include named in
theorem word_ne_definition (w : Word) (id : DefinitionId) : w.text ≠ arena.definitionName id := by
  intro same
  rcases arena.definitionName_cases named id with
    ⟨definition, -, plain, -, name⟩ | ⟨base, -, name⟩
  · rw [← name, ← same, w.text_reserved.1] at plain
    cases plain
  · have inside := Arena.mem_at_of_numbered (same.trans name)
    exact Text.ne_of_isIdentifierTail (mem_word inside) (by decide) rfl

include named in
theorem number_ne_definition (x : Double) (id : DefinitionId) : x.text ≠ arena.definitionName id := by
  intro same
  rcases arena.definitionName_cases named id with
    ⟨definition, -, plain, -, name⟩ | ⟨base, -, name⟩
  · rw [← name, ← same] at plain
    rcases x.text_start with word | ⟨c, rest, chars, start⟩
    · have reserved : ∀ text ∈ ["NaN", "Infinity"], isPlainName text = false := by decide
      rw [reserved _ word] at plain
      cases plain
    · obtain ⟨d, tail, chars', head, -⟩ :=
        (Text.isIdentifier_eq_true_iff _).1 (isIdentifier_of_isPlainName plain)
      rw [chars] at chars'
      obtain ⟨rfl, -⟩ := List.cons.inj chars'
      rcases start with digit | rfl
      · rw [Text.isIdentifierHead_of_isDigit digit] at head
        cases head
      · revert head
        decide
  · exact (mem_number (Arena.mem_at_of_numbered (same.trans name))).2.2 rfl

/-! ## Parts -/

theorem isSeparator_comma : Text.IsSeparator [','] ", " :=
  ⟨[], ',', [' '], rfl, .nil, by decide, by decide⟩

theorem isSeparator_semicolon : Text.IsSeparator [';'] "; " :=
  ⟨[], ';', [' '], rfl, .nil, by decide, by decide⟩

theorem map_eq_map_of_injective {α β : Type} {f : α → β} {as bs : List α}
    (injective : ∀ a ∈ as, ∀ b ∈ bs, f a = f b → a = b) (same : as.map f = bs.map f) : as = bs := by
  induction as generalizing bs with
  | nil => exact (List.map_eq_nil_iff.1 same.symm).symm
  | cons a as ih =>
    cases bs with
    | nil => cases same
    | cons b bs =>
      obtain ⟨first, rest⟩ := List.cons.inj same
      rw [injective a (by simp) b (by simp) first,
        ih (fun a inside b inside' => injective a (by simp [inside]) b (by simp [inside'])) rest]

theorem element_injective {element element' : String × Bool}
    (h : Text.IsPiece typeStops element.1) (h' : Text.IsPiece typeStops element'.1)
    (same : element.1 ++ optionalMark element.2 = element'.1 ++ optionalMark element'.2) :
    element = element' := by
  have ends (optional : Bool) (c : Char) (tail : List Char)
      (chars : (optionalMark optional).toList = c :: tail) : Text.Ends typeStops c := by
    cases optional with
    | false => cases chars
    | true =>
      obtain ⟨rfl, -⟩ := List.cons.inj chars
      exact .inl ⟨by decide, by decide⟩
  have chars := congrArg String.toList same
  rw [String.toList_append, String.toList_append] at chars
  obtain ⟨names, marks⟩ := h.2.append_injective h'.2 (ends _) (ends _) chars
  have marks : element.2 = element'.2 := by
    cases first : element.2 <;> cases second : element'.2 <;> simp [first, second, optionalMark] at marks <;> rfl
  exact Prod.ext (String.toList_inj.1 names) marks

theorem keyLabel_injective {key key' : String} (same : keyLabel key = keyLabel key') : key = key' := by
  have quoted_ne {key : String} (identifier : Text.isIdentifier key = true) (key' : String) :
      key ≠ Text.quote key' := by
    rintro rfl
    have inside : '"' ∈ (Text.quote key').toList := by simp [Text.toList_quote]
    exact Text.ne_of_isIdentifierTail (Text.isIdentifierTail_of_isIdentifier identifier inside)
      (by decide) rfl
  unfold keyLabel at same
  split at same <;> split at same
  · exact same
  · exact absurd same (quoted_ne ‹_› key')
  · exact absurd same.symm (quoted_ne ‹_› key)
  · exact (Text.prefixFree_quote key key' [] [] (by simp [same])).1

/-- What stands behind the key of a member. -/
theorem tail_injective {optional optional' : Bool} {content content' : Content}
    (same : (optionalMark optional ++ content.text).toList =
      (optionalMark optional' ++ content'.text).toList) :
    optional = optional' ∧ content = content' := by
  cases optional <;> cases optional' <;> cases content <;> cases content' <;>
    simp_all [optionalMark, Content.text, String.toList_inj]

theorem member_injective {member member' : Member} (same : member.text = member'.text) :
    member = member' := by
  have ends (optional : Bool) (content : Content) (c : Char) (tail : List Char)
      (chars : (optionalMark optional ++ content.text).toList = c :: tail) :
      Text.Ends ['?', '(', ':'] c := by
    have start : c ∈ ['?', '(', ':'] := by
      cases optional <;> cases content <;> simp [optionalMark, Content.text] at chars <;>
        simp [← chars.1]
    have plain : ∀ c ∈ ['?', '(', ':'], Text.isMark c = false := by decide
    exact .inl ⟨start, plain c start⟩
  have chars : (keyLabel member.key).toList ++
      (optionalMark member.optional ++ member.content.text).toList =
        (keyLabel member'.key).toList ++
          (optionalMark member'.optional ++ member'.content.text).toList := by
    rw [← String.toList_append, ← String.toList_append]
    exact congrArg String.toList same
  obtain ⟨labels, tails⟩ := (closed_keyLabel (by decide) _).append_injective
    (closed_keyLabel (by decide) _) (ends _ _) (ends _ _) chars
  obtain ⟨optional, content⟩ := tail_injective tails
  cases member
  cases member'
  obtain rfl := keyLabel_injective (String.toList_inj.1 labels)
  exact Member.mk.injEq _ _ _ _ _ _ ▸ ⟨rfl, optional, content⟩

/-- The text starts with an opening bracket. -/
def startsWithBracket (text : String) : Bool := text.toList.head? == some '['

theorem startsWithBracket_keyLabel (key rest : String) :
    startsWithBracket (keyLabel key ++ rest) = false := by
  unfold keyLabel
  split
  · rename_i identifier
    obtain ⟨c, tail, chars, head, -⟩ := (Text.isIdentifier_eq_true_iff _).1 identifier
    rw [startsWithBracket, String.toList_append, chars]
    refine beq_eq_false_iff_ne.2 fun bracket => ?_
    obtain rfl : c = '[' := by simpa using bracket
    revert head
    decide
  · rw [startsWithBracket, String.toList_append, Text.toList_quote]
    rfl

theorem startsWithBracket_indexText (name : String) : startsWithBracket (indexText name) = true := by
  rw [startsWithBracket, toList_indexText]
  rfl

/-- The members of an object and the type of all other values stand in one list of pieces, where only
the latter starts with a bracket. -/
theorem objectPieces_injective {members members' : List Member} {index index' : Option String}
    (same : Text.sort (members.map Member.text) ++ index.toList.map indexText =
      Text.sort (members'.map Member.text) ++ index'.toList.map indexText) :
    (∀ member, member ∈ members ↔ member ∈ members') ∧ index = index' := by
  have mem_sort {members : List Member} {text : String} :
      text ∈ Text.sort (members.map Member.text) ↔ ∃ member ∈ members, member.text = text := by
    rw [Text.sort, List.mem_mergeSort, List.mem_map]
  have key {members : List Member} {text : String}
      (inside : text ∈ Text.sort (members.map Member.text)) : startsWithBracket text = false := by
    obtain ⟨member, -, rfl⟩ := mem_sort.1 inside
    exact startsWithBracket_keyLabel _ _
  have other {index : Option String} {text : String}
      (inside : text ∈ index.toList.map indexText) : startsWithBracket text = true := by
    obtain ⟨name, -, rfl⟩ := List.mem_map.1 inside
    exact startsWithBracket_indexText name
  have front (members : List Member) (index : Option String) :
      (Text.sort (members.map Member.text) ++ index.toList.map indexText).filter
        (!startsWithBracket ·) = Text.sort (members.map Member.text) := by
    rw [List.filter_append, List.filter_eq_self.2 fun text inside => by simp [key inside],
      List.filter_eq_nil_iff.2 fun text inside => by simp [other inside], List.append_nil]
  have back (members : List Member) (index : Option String) :
      (Text.sort (members.map Member.text) ++ index.toList.map indexText).filter
        startsWithBracket = index.toList.map indexText := by
    rw [List.filter_append, List.filter_eq_nil_iff.2 fun text inside => by simp [key inside],
      List.filter_eq_self.2 fun text inside => by simp [other inside], List.nil_append]
  have texts : Text.sort (members.map Member.text) = Text.sort (members'.map Member.text) := by
    rw [← front members index, ← front members' index', same]
  have names : index.toList.map indexText = index'.toList.map indexText := by
    rw [← back members index, ← back members' index', same]
  have covers {members members' : List Member}
      (texts : Text.sort (members.map Member.text) = Text.sort (members'.map Member.text))
      {member : Member} (inside : member ∈ members) : member ∈ members' := by
    obtain ⟨member', inside', text⟩ := mem_sort.1 (texts ▸ mem_sort.2 ⟨member, inside, rfl⟩)
    exact member_injective text ▸ inside'
  refine ⟨fun member => ⟨covers texts, covers texts.symm⟩, ?_⟩
  have names := map_eq_map_of_injective (fun name _ name' _ text => by
    have chars := congrArg String.toList text
    rw [toList_indexText, toList_indexText] at chars
    exact String.toList_inj.1 (List.append_cancel_left chars)) names
  cases index <;> cases index' <;> simp_all

variable {form form' : Form}

include named in
/-- Forms that are spelled alike are alike. -/
theorem alike_of_core_eq (parts : ∀ part ∈ form.parts, Text.IsPiece typeStops part)
    (parts' : ∀ part ∈ form'.parts, Text.IsPiece typeStops part)
    (same : form.core arena = form'.core arena) : form.Alike form' := by
  have marks : form.mark = form'.mark := by
    rw [← firstMark_core named form, ← firstMark_core named form', same]
  cases form with
  | word w =>
    cases form' with
    | word w' => exact congrArg Form.word (Word.text_injective same)
    | number x => exact absurd same (word_ne_number w x)
    | definition id => exact absurd same (word_ne_definition named w id)
    | _ => cases marks
  | number x =>
    cases form' with
    | word w => exact absurd same.symm (word_ne_number w x)
    | number x' => exact ⟨x', rfl, same⟩
    | definition id => exact absurd same (number_ne_definition named x id)
    | _ => cases marks
  | definition id =>
    cases form' with
    | word w => exact absurd same.symm (word_ne_definition named w id)
    | number x => exact absurd same.symm (number_ne_definition named x id)
    | definition id' => exact congrArg Form.definition (Arena.definitionName_injective named same)
    | _ => cases marks
  | quoted s =>
    cases form' with
    | quoted s' =>
      have chars : (Text.quote s).toList ++ [] = (Text.quote s').toList ++ [] := by
        rw [show Text.quote s = Text.quote s' from same]
      exact congrArg Form.quoted (Text.prefixFree_quote s s' [] [] chars).1
    | _ => cases marks
  | array element =>
    cases form' with
    | array element' =>
      have chars := congrArg String.toList same
      simp only [core, String.toList_append, List.append_assoc, List.append_cancel_left_eq,
        List.append_cancel_right_eq] at chars
      exact congrArg Form.array (String.toList_inj.1 chars)
    | _ => cases marks
  | tuple elements =>
    cases form' with
    | tuple elements' =>
      have chars := congrArg String.toList same
      simp only [core, String.toList_append, List.append_assoc, List.append_cancel_left_eq,
        List.append_cancel_right_eq] at chars
      have pieces := Text.intercalate_injective isSeparator_comma ?_ ?_ (String.toList_inj.1 chars)
      · refine congrArg Form.tuple (map_eq_map_of_injective (fun e inside e' inside' => ?_) pieces)
        exact element_injective (parts _ (List.mem_map_of_mem inside))
          (parts' _ (List.mem_map_of_mem inside'))
      · intro text inside
        obtain ⟨element, listed, rfl⟩ := List.mem_map.1 inside
        exact isPiece_element (parts _ (List.mem_map_of_mem listed))
      · intro text inside
        obtain ⟨element, listed, rfl⟩ := List.mem_map.1 inside
        exact isPiece_element (parts' _ (List.mem_map_of_mem listed))
    | _ => cases marks
  | object members index =>
    cases form' with
    | object members' index' =>
      have chars := congrArg String.toList same
      simp only [core, String.toList_append, List.append_assoc, List.append_cancel_left_eq,
        List.append_cancel_right_eq] at chars
      obtain ⟨members, rfl⟩ := objectPieces_injective (Text.intercalate_injective
        isSeparator_semicolon (fun _ => isPiece_objectPiece parts)
        (fun _ => isPiece_objectPiece parts') (String.toList_inj.1 chars))
      exact ⟨members', rfl, members⟩
    | _ => cases marks

theorem Alike.isMarked (h : form.Alike form') : form.isMarked = form'.isMarked := by
  cases form with
  | number value =>
    obtain ⟨_, rfl, -⟩ := h
    rfl
  | object members index =>
    obtain ⟨_, rfl, -⟩ := h
    rfl
  | _ =>
    obtain rfl := h
    rfl

end Form

end ShapeCheck
