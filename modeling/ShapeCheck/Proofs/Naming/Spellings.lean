import ShapeCheck.Compile.Leaf
import ShapeCheck.Proofs.Naming.Backwards
import ShapeCheck.Proofs.Naming.Depth

set_option autoImplicit false

/-! # No type is named like an optional part

The predicate of an optional part is named after the part, in brackets behind a reserved word. Whatever
definitions are called, no type has such a name: read from its end, it would have to be the name of a
definition with arguments, and no definition is named by the reserved word.

Main facts: `Arena.isSpelling_of_typeNameWithin` and `Arena.ne_optionalName_of_typeNameWithin`.
-/

namespace ShapeCheck

namespace Text

instance : DecidablePred IsPlain := fun c =>
  inferInstanceAs (Decidable (isMark c = false ∧ c ≠ '@' ∧ c ≠ '\\'))

theorem isPlain_of_isIdentifierTail {c : Char} (h : isIdentifierTail c = true) : IsPlain c :=
  ⟨isMark_of_isIdentifierTail h, ne_of_isIdentifierTail h (by decide),
    ne_of_isIdentifierTail h (by decide)⟩

end Text

namespace Arena

variable {arena : Arena}

/-! ## Spellings -/

/-- What stands in front of the mark and the number of a definition, the last character first. -/
def numberedBase (arena : Arena) (n : Nat) : List Char :=
  match arena.definition? ⟨n⟩ with
  | some definition => definition.name.toList.reverse
  | none => []

/-- The text can be read from its end, as the names of types can. -/
def IsSpelling (arena : Arena) (text : String) : Prop :=
  Text.Backward arena.numberedBase text.toList.reverse

/-- The text does not end with the mark and the number of a definition. -/
def IsClear (text : String) : Prop := ¬ Text.IsNumbered text.toList.reverse

theorem isClear_of_isPlain {a : String} (h : ∀ c ∈ a.toList, Text.IsPlain c) : IsClear a :=
  Text.not_isNumbered_of_not_mem fun inside => (h '@' (List.mem_reverse.1 inside)).2.1 rfl

theorem isClear_append (a : String) {b : String} (before : List Char) (c : Char)
    (chars : b.toList = before ++ [c]) (other : c.isDigit = false) : IsClear (a ++ b) := by
  have reversed : (a ++ b).toList.reverse = c :: (before.reverse ++ a.toList.reverse) := by
    rw [String.toList_append, chars]
    simp
  unfold IsClear
  rw [reversed]
  exact Text.not_isNumbered_cons other _

namespace IsSpelling

variable {a b : String}

theorem of_isPlain (h : ∀ c ∈ a.toList, Text.IsPlain c) : arena.IsSpelling a :=
  Text.Backward.of_isPlain fun c inside => h c (List.mem_reverse.1 inside)

theorem append (h : arena.IsSpelling a) (h' : arena.IsSpelling b) (clear : IsClear a) :
    arena.IsSpelling (a ++ b) := by
  unfold IsSpelling
  rw [String.toList_append, List.reverse_append]
  exact Text.Backward.append h' h fun numbered => absurd numbered clear

/-- Behind the number of a definition another text may follow that does not start with a digit. -/
theorem append_other (h : arena.IsSpelling a) (h' : arena.IsSpelling b)
    (other : ∀ c ∈ b.toList.head?, c.isDigit = false) : arena.IsSpelling (a ++ b) := by
  unfold IsSpelling
  rw [String.toList_append, List.reverse_append]
  refine Text.Backward.append h' h fun _ c last => other c ?_
  obtain ⟨before, chars⟩ := last
  have front := congrArg List.reverse chars
  rw [List.reverse_reverse, List.reverse_append] at front
  rw [← front]
  rfl

theorem of_brackets (pair : Char × Char) (listed : pair ∈ Text.brackets) {name : String}
    (before inner : String)
    (chars : name.toList = before.toList ++ pair.1 :: (inner.toList ++ [pair.2]))
    (h : arena.IsSpelling before) (h' : arena.IsSpelling inner) : arena.IsSpelling name := by
  have reversed : name.toList.reverse =
      pair.2 :: (inner.toList.reverse ++ pair.1 :: before.toList.reverse) := by
    rw [chars]
    simp
  unfold IsSpelling
  rw [reversed]
  exact .bracketed listed h' h

theorem quote (s : String) : arena.IsSpelling (Text.quote s) := by
  have reversed : (Text.quote s).toList.reverse =
      '"' :: ((s.toList.flatMap Text.spellJson).reverse ++ '"' :: []) := by
    rw [Text.toList_quote]
    simp
  unfold IsSpelling
  rw [reversed]
  exact .quoted (Text.escaped_spelled _) .nil

theorem identifier {s : String} (h : Text.isIdentifier s = true) : arena.IsSpelling s :=
  .of_isPlain fun _ inside =>
    Text.isPlain_of_isIdentifierTail (Text.isIdentifierTail_of_isIdentifier h inside)

theorem definitionName (arena : Arena) (id : DefinitionId) :
    arena.IsSpelling (arena.definitionName id) := by
  have numbered (name : String) (front : arena.numberedBase id.index = name.toList.reverse) :
      arena.IsSpelling (name ++ "@" ++ toString id.index) := by
    have reversed : (name ++ "@" ++ toString id.index).toList.reverse =
        (Nat.toDigits 10 id.index).reverse ++ '@' :: (arena.numberedBase id.index ++ []) := by
      rw [front, String.toList_append, String.toList_append]
      show (_ ++ (Nat.repr id.index).toList).reverse = _
      rw [Nat.toList_repr]
      simp
    unfold IsSpelling
    rw [reversed]
    exact .numbered id.index .nil
  cases found : arena.definition? id with
  | none =>
    have name : arena.definitionName id = "" ++ "@" ++ toString id.index := by
      simp [Arena.definitionName, found]
    rw [name]
    exact numbered "" (by simp [numberedBase, found])
  | some definition =>
    simp only [Arena.definitionName, found]
    split
    · rename_i plain
      exact identifier (isIdentifier_of_isPlainName (Bool.and_eq_true_iff.1 plain).1)
    · exact numbered definition.name (by simp [numberedBase, found])

theorem intercalate {separator : String} (some : separator ≠ "")
    (plain : ∀ c ∈ separator.toList, Text.IsPlain c ∧ c.isDigit = false)
    {texts : List String} (h : ∀ text ∈ texts, arena.IsSpelling text) :
    arena.IsSpelling (separator.intercalate texts) := by
  induction texts with
  | nil => exact .of_isPlain (by simp)
  | cons text rest ih =>
    have below := ih fun t inside => h t (by simp [inside])
    cases rest with
    | nil => simpa using h text
    | cons next rest =>
      rw [String.intercalate_cons_cons, String.append_assoc]
      have front := (IsSpelling.of_isPlain fun c inside => (plain c inside).1).append below
        (isClear_of_isPlain fun c inside => (plain c inside).1)
      refine (h text (by simp)).append_other front fun c first => ?_
      cases chars : separator.toList with
      | nil => exact absurd (String.toList_eq_nil_iff.1 chars) some
      | cons d others =>
        obtain rfl : d = c := by simpa [chars] using first
        exact (plain d (by simp [chars])).2

end IsSpelling

/-! ## Names of types -/

theorem isSpelling_exactMark (arena : Arena) (exact : Bool) :
    arena.IsSpelling (exactMark exact) ∧ IsClear (exactMark exact) := by
  have plain : ∀ exact, ∀ c ∈ (exactMark exact).toList, Text.IsPlain c := by decide
  exact ⟨.of_isPlain (plain exact), isClear_of_isPlain (plain exact)⟩

theorem isSpelling_keyLabel (arena : Arena) (key : String) :
    arena.IsSpelling (keyLabel key) ∧ IsClear (keyLabel key) := by
  unfold keyLabel
  split
  · rename_i identifier
    exact ⟨.identifier identifier, isClear_of_isPlain fun _ inside =>
      Text.isPlain_of_isIdentifierTail (Text.isIdentifierTail_of_isIdentifier identifier inside)⟩
  · refine ⟨.quote key, ?_⟩
    have chars : (Text.quote key).toList = ('"' :: key.toList.flatMap Text.spellJson) ++ ['"'] := by
      rw [Text.toList_quote]
      simp
    simpa using isClear_append "" _ _ chars (by decide)

theorem isSpelling_label (arena : Arena) (property : Property) :
    arena.IsSpelling property.label ∧ IsClear property.label := by
  obtain ⟨spelled, clear⟩ := isSpelling_keyLabel arena property.name
  unfold Property.label
  split
  · exact ⟨spelled.append (.of_isPlain (by decide)) clear, isClear_append _ [] '?' rfl rfl⟩
  · simpa using ⟨spelled, clear⟩

section
variable {name : Substitution → Bool → TypeId → Except CompileError String}
  (named : ∀ s exact type text, name s exact type = .ok text → arena.IsSpelling text)
  {s : Substitution} {exact : Bool} {text : String}

/-- The name of a leaf is a word, a number or a quotation. -/
theorem leaf_name_cases {descriptor : Descriptor} {leaf : Leaf} (isLeaf : descriptor.leaf? = some leaf) :
    (∀ c ∈ leaf.name.toList, Text.IsPlain c) ∨ ∃ value, leaf.name = Text.quote value := by
  have word (w : Word) : ∀ c ∈ w.text.toList, Text.IsPlain c := fun _ inside =>
    Text.isPlain_of_isIdentifierTail (Form.mem_word inside)
  cases descriptor with
  | keyword w => cases w <;> cases isLeaf <;> exact .inl (word (.keyword _))
  | stringLiteral value =>
    cases isLeaf
    exact .inr ⟨value, rfl⟩
  | numberLiteral value =>
    cases isLeaf
    refine .inl fun c inside => ?_
    rcases Double.mem_text inside with letter | rfl | rfl
    · exact Text.isPlain_of_isIdentifierTail (Text.isIdentifierTail_of_isAlphanum letter)
    · decide
    · decide
  | booleanLiteral value =>
    cases isLeaf
    exact .inl (word (.boolean value))
  | buffer =>
    cases isLeaf
    exact .inl (word .buffer)
  | view kind =>
    cases isLeaf
    exact .inl (word (.view kind))
  | _ => cases isLeaf

theorem isSpelling_leaf {descriptor : Descriptor} {leaf : Leaf} (isLeaf : descriptor.leaf? = some leaf) :
    arena.IsSpelling leaf.name := by
  rcases leaf_name_cases isLeaf with plain | ⟨value, quoted⟩
  · exact .of_isPlain plain
  · rw [quoted]
    exact .quote value

include named

theorem isSpelling_mapM {types : List TypeId} {texts : List String}
    (made : types.mapM (name s exact) = .ok texts) : ∀ text ∈ texts, arena.IsSpelling text := by
  intro text inside
  obtain ⟨type, -, made⟩ := exists_left_of_forall₂ (mapM_eq_ok.1 made) inside
  exact named s exact type text made

theorem isSpelling_members {separator : String} (some : separator ≠ "")
    (plain : ∀ c ∈ separator.toList, Text.IsPlain c ∧ c.isDigit = false) {members : List TypeId}
    (made : membersNameWith name s exact separator members = .ok text) : arena.IsSpelling text := by
  obtain ⟨texts, found, made⟩ := bind_eq_ok.1 made
  obtain rfl := Except.ok.inj made
  exact .intercalate some plain fun text inside =>
    isSpelling_mapM named found text (Text.mem_sortUnique.1 inside)

theorem isSpelling_property {property : Property}
    (made : property.nameWith name s exact = .ok text) : arena.IsSpelling text := by
  obtain ⟨spelled, clear⟩ := isSpelling_label arena property
  unfold Property.nameWith at made
  split at made
  · obtain rfl := Except.ok.inj made
    exact spelled.append (.of_isPlain (by decide)) clear
  split at made
  · obtain ⟨inner, found, made⟩ := bind_eq_ok.1 made
    obtain rfl := Except.ok.inj made
    exact (spelled.append (.of_isPlain (by decide)) clear).append (named _ _ _ _ found)
      (isClear_append _ [':'] ' ' rfl rfl)
  · obtain rfl := Except.ok.inj made
    exact spelled

theorem isSpelling_object {shape : ObjectShape} (made : shape.nameWith name s exact = .ok text) :
    arena.IsSpelling (exactMark exact ++ text) := by
  obtain ⟨members, found, made⟩ := bind_eq_ok.1 made
  obtain ⟨index, found', made⟩ := bind_eq_ok.1 made
  obtain rfl := Except.ok.inj made
  refine .of_brackets ('\x7b', '\x7d') (by decide) (exactMark exact)
    ("; ".intercalate (Text.sort members ++ index)) (by simp) (isSpelling_exactMark arena exact).1
    (.intercalate (by decide) (by decide) fun text inside => ?_)
  rcases List.mem_append.1 inside with inside | inside
  · rw [Text.sort, List.mem_mergeSort] at inside
    obtain ⟨property, -, made⟩ := exists_left_of_forall₂ (mapM_eq_ok.1 found) inside
    exact isSpelling_property named made
  · obtain ⟨type, -, made⟩ := exists_left_of_forall₂ (mapM_eq_ok.1 found') inside
    obtain ⟨inner, spelled, made⟩ := bind_eq_ok.1 made
    obtain rfl := Except.ok.inj made
    have key : arena.IsSpelling "[key: string]" :=
      .of_brackets ('[', ']') (by decide) "" "key: string" rfl (.of_isPlain (by simp))
        (.of_isPlain (by decide))
    have front : arena.IsSpelling ("[key: string]" ++ ": ") :=
      key.append_other (.of_isPlain (by decide)) (by simp)
    exact front.append (named _ _ _ _ spelled) (isClear_append _ [':'] ' ' rfl rfl)

theorem isSpelling_arguments {arguments : List (Except CompileError TypeId)} {texts : List String}
    (made : arguments.mapM (fun argument => do name s exact (← argument)) = .ok texts) :
    arena.IsSpelling (", ".intercalate texts) := by
  refine .intercalate (by decide) (by decide) fun text inside => ?_
  obtain ⟨argument, -, made⟩ := exists_left_of_forall₂ (mapM_eq_ok.1 made) inside
  obtain ⟨type, -, made⟩ := bind_eq_ok.1 made
  exact named _ _ _ _ made

theorem isSpelling_reference {target : DefinitionId} {arguments : List TypeId}
    (made : referenceNameWith arena name s exact target arguments = .ok text) :
    arena.IsSpelling (exactMark exact ++ text) := by
  obtain ⟨mark, clear⟩ := isSpelling_exactMark arena exact
  have base := mark.append (.definitionName arena target) clear
  unfold referenceNameWith at made
  dsimp only at made
  split at made
  · obtain rfl := Except.ok.inj made
    exact base
  split at made
  · obtain rfl := Except.ok.inj made
    exact base
  · obtain ⟨texts, found, made⟩ := bind_eq_ok.1 made
    obtain rfl := Except.ok.inj made
    exact .of_brackets ('<', '>') (by decide) _ (", ".intercalate texts) (by simp) base
      (isSpelling_arguments named found)

theorem isSpelling_nameWith {descriptor : Descriptor}
    (made : descriptor.nameWith arena name s exact = .ok text) : arena.IsSpelling text := by
  obtain ⟨mark, clear⟩ := isSpelling_exactMark arena exact
  cases leaf : descriptor.leaf? with
  | some leaf' =>
    obtain rfl := Except.ok.inj ((Descriptor.leaf?_name leaf arena name s exact).symm.trans made)
    exact isSpelling_leaf leaf
  | none =>
    cases descriptor with
    | keyword word =>
      cases word with
      | symbol =>
        obtain rfl := Except.ok.inj made
        exact .of_isPlain (by decide)
      | _ => cases leaf
    | array element =>
      obtain ⟨inner, found, made⟩ := bind_eq_ok.1 made
      obtain rfl := Except.ok.inj made
      exact .of_brackets ('<', '>') (by decide) "Array" inner (by simp) (.of_isPlain (by decide))
        (named _ _ _ _ found)
    | tuple elements =>
      obtain ⟨texts, found, made⟩ := bind_eq_ok.1 made
      obtain rfl := Except.ok.inj made
      refine .of_brackets ('[', ']') (by decide) "" (", ".intercalate texts) (by simp)
        (.of_isPlain (by simp)) (.intercalate (by decide) (by decide) fun text inside => ?_)
      obtain ⟨element, -, made⟩ := exists_left_of_forall₂ (mapM_eq_ok.1 found) inside
      obtain ⟨inner, spelled, made⟩ := bind_eq_ok.1 made
      have part := named _ _ _ _ spelled
      obtain rfl := Except.ok.inj made
      split
      · exact part.append_other (.of_isPlain (by decide)) (by simp)
      · exact part
    | object shape =>
      obtain ⟨inner, found, made⟩ := bind_eq_ok.1 made
      obtain rfl := Except.ok.inj made
      exact isSpelling_object named found
    | union members => exact isSpelling_members named (by decide) (by decide) made
    | intersection members =>
      obtain ⟨inner, found, made⟩ := bind_eq_ok.1 made
      obtain rfl := Except.ok.inj made
      exact mark.append (isSpelling_members named (by decide) (by decide) found) clear
    | reference target arguments =>
      obtain ⟨inner, found, made⟩ := bind_eq_ok.1 made
      obtain rfl := Except.ok.inj made
      exact isSpelling_reference named found
    | parameter id =>
      obtain ⟨target, -, made⟩ := bind_eq_ok.1 made
      exact named _ _ _ _ made
    | indexAccess whole key =>
      obtain ⟨front, found, made⟩ := bind_eq_ok.1 made
      obtain ⟨inner, found', made⟩ := bind_eq_ok.1 made
      obtain rfl := Except.ok.inj made
      exact .of_brackets ('[', ']') (by decide) (exactMark exact ++ front) inner (by simp)
        (mark.append (named _ _ _ _ found) clear) (named _ _ _ _ found')
    | keyof operand =>
      obtain ⟨inner, found, made⟩ := bind_eq_ok.1 made
      obtain rfl := Except.ok.inj made
      exact (mark.append (.of_isPlain (by decide)) clear).append (named _ _ _ _ found)
        (isClear_append _ "keyof".toList ' ' rfl rfl)
    | _ => cases leaf

end

theorem isSpelling_of_typeNameWithin {depth : Nat} {s : Substitution} {exact : Bool} {type : TypeId}
    {text : String} (made : typeNameWithin arena depth s exact type = .ok text) :
    arena.IsSpelling text := by
  induction depth generalizing s exact type text with
  | zero => cases made
  | succ depth ih =>
    obtain ⟨descriptor, -, made⟩ := bind_eq_ok.1 made
    exact isSpelling_nameWith (fun _ _ _ _ => ih) made

/-! ## Names of optional parts -/

theorem toList_optionalName (inner : String) :
    (optionalName inner).toList = "optional".toList ++ '<' :: (inner.toList ++ ['>']) := by
  simp [optionalName]

theorem reverse_optionalName (inner : String) : (optionalName inner).toList.reverse =
    '>' :: (inner.toList.reverse ++ '<' :: "optional".toList.reverse) := by
  rw [toList_optionalName]
  simp

theorem isSpelling_optionalName {inner : String} (h : arena.IsSpelling inner) :
    arena.IsSpelling (optionalName inner) :=
  .of_brackets ('<', '>') (by decide) "optional" inner (toList_optionalName inner)
    (.of_isPlain (by decide)) h

section
variable {inner : String}

theorem ne_optionalName_of_head {text : String} (h : text.toList.head? ≠ some 'o') :
    text ≠ optionalName inner := by
  rintro rfl
  exact h (by rw [toList_optionalName]; rfl)

theorem ne_optionalName_of_isPlain {text : String} (h : ∀ c ∈ text.toList, Text.IsPlain c) :
    text ≠ optionalName inner := by
  rintro rfl
  have plain := h '>' (by rw [toList_optionalName]; simp)
  revert plain
  decide

theorem leaf_ne_optionalName {descriptor : Descriptor} {leaf : Leaf}
    (isLeaf : descriptor.leaf? = some leaf) : leaf.name ≠ optionalName inner := by
  rcases leaf_name_cases isLeaf with plain | ⟨value, quoted⟩
  · exact ne_optionalName_of_isPlain plain
  · rw [quoted]
    exact ne_optionalName_of_head (by rw [Text.toList_quote]; simp)

theorem exactMark_append_ne_optionalName {exact : Bool} {text : String}
    (h : text ≠ optionalName inner) : exactMark exact ++ text ≠ optionalName inner := by
  cases exact with
  | false => simpa [exactMark] using h
  | true => exact ne_optionalName_of_head (by simp [exactMark])

omit inner in
theorem definitionName_cases_spelled (arena : Arena) (id : DefinitionId) :
    isPlainName (arena.definitionName id) = true ∨
      ∃ name, arena.definitionName id = name ++ "@" ++ toString id.index := by
  unfold Arena.definitionName
  cases arena.definition? id with
  | none => exact .inr ⟨"", by simp⟩
  | some definition =>
    dsimp only
    split
    · rename_i plain
      exact .inl (Bool.and_eq_true_iff.1 plain).1
    · exact .inr ⟨definition.name, rfl⟩

omit inner in
theorem definitionName_ne_optional (arena : Arena) (id : DefinitionId) :
    arena.definitionName id ≠ "optional" := by
  intro same
  rcases definitionName_cases_spelled arena id with plain | ⟨name, written⟩
  · rw [same] at plain
    revert plain
    decide
  · have mark : '@' ∈ "optional".toList := by
      rw [← same, written]
      simp
    revert mark
    decide

theorem definitionName_ne_optionalName (arena : Arena) (id : DefinitionId) :
    arena.definitionName id ≠ optionalName inner := by
  rcases definitionName_cases_spelled arena id with plain | ⟨name, written⟩
  · exact ne_optionalName_of_isPlain fun _ inside => Text.isPlain_of_isIdentifierTail
      (Text.isIdentifierTail_of_isIdentifier (isIdentifier_of_isPlainName plain) inside)
  · intro same
    have reversed := congrArg (fun text : String => text.toList.reverse) (written.symm.trans same)
    simp only [reverse_optionalName, String.toList_append, List.reverse_append] at reversed
    have digits : (toString id.index).toList.reverse = (Nat.toDigits 10 id.index).reverse := by
      show (Nat.repr id.index).toList.reverse = _
      rw [Nat.toList_repr]
    rw [digits] at reversed
    obtain ⟨c, tail, chars, digit⟩ := (Text.isNumbered_digits id.index name.toList.reverse).exists_digit
    rw [(List.cons.inj (chars.symm.trans reversed)).1] at digit
    revert digit
    decide

variable (spelled : arena.IsSpelling inner)
include spelled

/-- A text in front of brackets is told by the whole. -/
theorem eq_optional_of_brackets {front arguments : String} (h : arena.IsSpelling arguments)
    (same : front ++ "<" ++ arguments ++ ">" = optionalName inner) : front = "optional" := by
  have reversed := congrArg (fun text : String => text.toList.reverse) same
  simp only [reverse_optionalName] at reversed
  have chars : (front ++ "<" ++ arguments ++ ">").toList.reverse =
      '>' :: (arguments.toList.reverse ++ '<' :: front.toList.reverse) := by simp
  rw [chars] at reversed
  have listed : ('<', '>') ∈ Text.brackets := by decide
  obtain ⟨-, -, fronts⟩ := Text.Backward.split h spelled listed listed (List.cons.inj reversed).2
  exact String.toList_inj.1 (List.reverse_inj.1 fronts)

/-- The last of several texts between separators would have to be in brackets as a whole, with the
separator in front. -/
theorem append_ne_optionalName {first last separator : String} (h : arena.IsSpelling last)
    (blank : ' ' ∈ separator.toList) (ends : ∀ tail, separator.toList.reverse ≠ '>' :: tail) :
    first ++ (separator ++ last) ≠ optionalName inner := by
  intro same
  have reversed := congrArg (fun text : String => text.toList.reverse) same
  simp only [reverse_optionalName, String.toList_append, List.reverse_append,
    List.append_assoc] at reversed
  unfold IsSpelling at h
  generalize last.toList.reverse = text at h reversed
  cases h with
  | nil =>
    cases chars : separator.toList.reverse with
    | nil => simp [List.reverse_eq_nil_iff.1 chars] at blank
    | cons c rest =>
      rw [chars] at reversed
      exact ends rest (by rw [chars, (List.cons.inj reversed).1])
  | char plain =>
    rw [(List.cons.inj reversed).1] at plain
    revert plain
    decide
  | numbered n =>
    obtain ⟨c, tail, chars, digit⟩ := (Text.isNumbered_digits n (arena.numberedBase n ++ _)).exists_digit
    rw [chars] at reversed
    rw [(List.cons.inj reversed).1] at digit
    revert digit
    decide
  | quoted => exact absurd (List.cons.inj reversed).1 (by decide)
  | @bracketed inside rest pair listed closed below =>
    have all : ∀ p ∈ Text.brackets, p.2 = '>' → p = ('<', '>') := by decide
    obtain rfl := all pair listed (List.cons.inj reversed).1
    simp only [List.cons_append, List.append_assoc, List.cons.injEq, true_and] at reversed
    obtain ⟨-, -, fronts⟩ := closed.split spelled listed listed reversed
    have letters : ' ' ∈ "optional".toList.reverse := by
      rw [← fronts]
      simp [blank]
    revert letters
    decide

variable {name : Substitution → Bool → TypeId → Except CompileError String}
  (named : ∀ s exact type text, name s exact type = .ok text →
    arena.IsSpelling text ∧ text ≠ optionalName inner)
  {s : Substitution} {exact : Bool} {text : String}
include named

theorem members_ne_optionalName {separator : String} (some : separator ≠ "")
    (plain : ∀ c ∈ separator.toList, Text.IsPlain c ∧ c.isDigit = false)
    (blank : ' ' ∈ separator.toList) {members : List TypeId}
    (made : membersNameWith name s exact separator members = .ok text) : text ≠ optionalName inner := by
  obtain ⟨texts, found, made⟩ := bind_eq_ok.1 made
  obtain rfl := Except.ok.inj made
  have part : ∀ text ∈ Text.sortUnique texts, arena.IsSpelling text ∧ text ≠ optionalName inner := by
    intro text inside
    obtain ⟨type, -, made⟩ :=
      exists_left_of_forall₂ (mapM_eq_ok.1 found) (Text.mem_sortUnique.1 inside)
    exact named s exact type text made
  generalize Text.sortUnique texts = texts at part
  match texts, part with
  | [], _ => exact ne_optionalName_of_head (by simp)
  | [single], part => simpa using (part single (by simp)).2
  | first :: next :: rest, part =>
    rw [String.intercalate_cons_cons, String.append_assoc]
    have last : arena.IsSpelling (separator.intercalate (next :: rest)) :=
      .intercalate some plain fun text inside => (part text (by simp [inside])).1
    refine append_ne_optionalName spelled last blank fun tail chars => ?_
    have mark := (plain '>' (List.mem_reverse.1 (by rw [chars]; exact List.mem_cons_self))).1
    revert mark
    decide

theorem reference_ne_optionalName {target : DefinitionId} {arguments : List TypeId}
    (made : referenceNameWith arena name s exact target arguments = .ok text) :
    text ≠ optionalName inner := by
  unfold referenceNameWith at made
  dsimp only at made
  split at made
  · obtain rfl := Except.ok.inj made
    exact definitionName_ne_optionalName arena target
  split at made
  · obtain rfl := Except.ok.inj made
    exact definitionName_ne_optionalName arena target
  · obtain ⟨texts, found, made⟩ := bind_eq_ok.1 made
    obtain rfl := Except.ok.inj made
    have arguments : arena.IsSpelling (", ".intercalate texts) :=
      isSpelling_arguments (fun s exact type text made => (named s exact type text made).1) found
    exact fun same => definitionName_ne_optional arena target
      (eq_optional_of_brackets spelled arguments same)

theorem nameWith_ne_optionalName {descriptor : Descriptor}
    (made : descriptor.nameWith arena name s exact = .ok text) : text ≠ optionalName inner := by
  cases leaf : descriptor.leaf? with
  | some leaf' =>
    obtain rfl := Except.ok.inj ((Descriptor.leaf?_name leaf arena name s exact).symm.trans made)
    exact leaf_ne_optionalName leaf
  | none =>
    cases descriptor with
    | keyword word =>
      cases word with
      | symbol =>
        obtain rfl := Except.ok.inj made
        exact ne_optionalName_of_head (by decide)
      | _ => cases leaf
    | array element =>
      obtain ⟨part, found, made⟩ := bind_eq_ok.1 made
      obtain rfl := Except.ok.inj made
      exact ne_optionalName_of_head (by simp)
    | tuple elements =>
      obtain ⟨texts, found, made⟩ := bind_eq_ok.1 made
      obtain rfl := Except.ok.inj made
      exact ne_optionalName_of_head (by simp)
    | object shape =>
      obtain ⟨members, found, made⟩ := bind_eq_ok.1 made
      obtain rfl := Except.ok.inj made
      obtain ⟨_, -, found⟩ := bind_eq_ok.1 found
      obtain ⟨_, -, found⟩ := bind_eq_ok.1 found
      obtain rfl := Except.ok.inj found
      exact exactMark_append_ne_optionalName (ne_optionalName_of_head (by simp))
    | union members => exact members_ne_optionalName spelled named (by decide) (by decide) (by decide) made
    | intersection members =>
      obtain ⟨text, found, made⟩ := bind_eq_ok.1 made
      obtain rfl := Except.ok.inj made
      exact exactMark_append_ne_optionalName
        (members_ne_optionalName spelled named (by decide) (by decide) (by decide) found)
    | reference target arguments =>
      obtain ⟨text, found, made⟩ := bind_eq_ok.1 made
      obtain rfl := Except.ok.inj made
      exact exactMark_append_ne_optionalName (reference_ne_optionalName spelled named found)
    | parameter id =>
      obtain ⟨target, -, made⟩ := bind_eq_ok.1 made
      exact (named _ _ _ _ made).2
    | indexAccess whole key =>
      obtain ⟨front, found, made⟩ := bind_eq_ok.1 made
      obtain ⟨part, found', made⟩ := bind_eq_ok.1 made
      obtain rfl := Except.ok.inj made
      intro same
      have reversed := congrArg (fun text : String => text.toList.reverse) same
      simp [toList_optionalName] at reversed
    | keyof operand =>
      obtain ⟨part, found, made⟩ := bind_eq_ok.1 made
      obtain rfl := Except.ok.inj made
      rw [String.append_assoc]
      exact exactMark_append_ne_optionalName (ne_optionalName_of_head (by simp))
    | _ => cases leaf

end

/-- No type is named like an optional part. -/
theorem ne_optionalName_of_typeNameWithin {depth : Nat} {s : Substitution} {exact : Bool}
    {type : TypeId} {text inner : String} (made : typeNameWithin arena depth s exact type = .ok text)
    (spelled : arena.IsSpelling inner) : text ≠ optionalName inner := by
  induction depth generalizing s exact type text with
  | zero => cases made
  | succ depth ih =>
    obtain ⟨descriptor, -, made⟩ := bind_eq_ok.1 made
    exact nameWith_ne_optionalName spelled
      (fun _ _ _ _ made => ⟨isSpelling_of_typeNameWithin made, ih made⟩) made

end Arena

end ShapeCheck
