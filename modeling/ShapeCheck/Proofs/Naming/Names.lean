import ShapeCheck.Proofs.Meaning.Equations
import ShapeCheck.Proofs.Naming.Depth
import ShapeCheck.Proofs.Naming.Reading

set_option autoImplicit false

/-! # What names say

The name of a type that is neither a union nor an intersection spells its form. The names of unions
and intersections are joined from those of the types that they unfold into, however the members are
nested.

Main facts: `Descriptor.exists_form`, `Arena.exists_texts` and `Arena.isPiece_of_hasName` (names can
stand between the separators of objects and tuples).
-/

namespace ShapeCheck

/-! ## Names without depths -/

/-- The type has the name, within some depth. -/
def Arena.HasName (arena : Arena) (exact : Bool) (type : TypeId) (name : String) : Prop :=
  ∃ depth, typeNameWithin arena depth [] exact type = .ok name

namespace Arena

variable {arena : Arena} {exact : Bool} {type : TypeId} {name name' : String}

theorem HasName.unique (h : arena.HasName exact type name) (h' : arena.HasName exact type name') :
    name = name' := by
  obtain ⟨depth, made⟩ := h
  obtain ⟨depth', made'⟩ := h'
  have one := typeNameWithin_mono (Nat.le_max_left depth depth') _ _ _ _ made
  have two := typeNameWithin_mono (Nat.le_max_right depth depth') _ _ _ _ made'
  exact Except.ok.inj (one.symm.trans two)

theorem hasName_of_typeName (h : arena.typeName [] exact type = .ok name) :
    arena.HasName exact type name := ⟨_, h⟩

theorem hasName_of_within {depth : Nat} (h : typeNameWithin arena depth [] exact type = .ok name) :
    arena.HasName exact type name := ⟨depth, h⟩

/-- A name is made from the descriptor. -/
theorem nameWith_of_within {depth : Nat}
    (h : typeNameWithin arena depth [] exact type = .ok name) :
    ∃ below descriptor, depth = below + 1 ∧ arena.lookup? type = some descriptor ∧
      descriptor.nameWith arena (typeNameWithin arena below) [] exact = .ok name := by
  cases depth with
  | zero => cases h
  | succ below =>
    obtain ⟨descriptor, found, made⟩ := bind_eq_ok.1 h
    refine ⟨below, descriptor, rfl, ?_, made⟩
    unfold lookup at found
    split at found
    · rename_i here
      rw [here, Except.ok.inj found]
    · cases found

end Arena

/-! ## Spelled forms -/

/-- The member says of the property what a name says of it, where `name` names types. -/
def Property.Spells (name : TypeId → String → Prop) (property : Property) (member : Member) : Prop :=
  member.key = property.name ∧ member.optional = property.optional ∧
    match member.content with
    | .method => property.method = true
    | .untyped => property.method = false ∧ property.type = none
    | .typed part => property.method = false ∧ ∃ type, property.type = some type ∧ name type part

/-- The form that the name of a type has, where `name` names the parts. -/
inductive Descriptor.Spells (name : TypeId → String → Prop) : Descriptor → Form → Prop
  | keyword (word : Keyword) : Spells name (.keyword word) (.word (.keyword word))
  | boolean (value : Bool) : Spells name (.booleanLiteral value) (.word (.boolean value))
  | buffer : Spells name .buffer (.word .buffer)
  | view (kind : ViewKind) : Spells name (.view kind) (.word (.view kind))
  | string (value : String) : Spells name (.stringLiteral value) (.quoted value)
  | number (value : Double) : Spells name (.numberLiteral value) (.number value)
  | array {element : TypeId} {part : String} :
      name element part → Spells name (.array element) (.array part)
  | tuple {elements : List TupleElement} {parts : List (String × Bool)} :
      List.Forall₂ (fun element part => name element.type part.1 ∧ element.optional = part.2)
        elements parts → Spells name (.tuple elements) (.tuple parts)
  | object {shape : ObjectShape} {members : List Member} {index : Option String} :
      List.Forall₂ (Property.Spells name) (shape.properties.filter (!·.symbolKeyed)) members →
        List.Forall₂ name shape.index.toList index.toList →
          Spells name (.object shape) (.object members index)
  | reference (target : DefinitionId) (arguments : List TypeId) :
      Spells name (.reference target arguments) (.definition target)

/-- The members of a union. -/
def Descriptor.alternatives? : Descriptor → Option (List TypeId)
  | union members => some members
  | _ => none

/-- The members of an intersection. -/
def Descriptor.conjuncts? : Descriptor → Option (List TypeId)
  | intersection members => some members
  | _ => none

/-! ## Lists side by side -/

section
variable {α β γ : Type} {R : α → β → Prop} {as : List α} {bs : List β}

theorem exists_toList_of_forall₂ {a? : Option α} (h : List.Forall₂ R a?.toList bs) :
    ∃ b? : Option β, bs = b?.toList := by
  cases a? with
  | none =>
    cases h
    exact ⟨none, rfl⟩
  | some a =>
    cases h with
    | cons _ rest =>
      cases rest
      exact ⟨some _, rfl⟩

/-- If each result is the text of something, all are. -/
theorem exists_map_of_forall₂ {S : α → γ → Prop} {f : γ → β} (h : List.Forall₂ R as bs)
    (each : ∀ a b, R a b → ∃ c, b = f c ∧ S a c) :
    ∃ cs, bs = cs.map f ∧ List.Forall₂ S as cs := by
  induction h with
  | nil => exact ⟨[], rfl, .nil⟩
  | cons here _ ih =>
    obtain ⟨c, rfl, first⟩ := each _ _ here
    obtain ⟨cs, rfl, rest⟩ := ih
    exact ⟨c :: cs, rfl, .cons first rest⟩

end

/-! ## Forms of descriptors -/

section
variable {name name' : TypeId → String → Prop} (le : ∀ type part, name type part → name' type part)
include le

theorem Property.Spells.imp {property : Property} {member : Member} (h : property.Spells name member) :
    property.Spells name' member := by
  obtain ⟨key, optional, content⟩ := h
  refine ⟨key, optional, ?_⟩
  cases said : member.content with
  | untyped | method =>
    rw [said] at content
    exact content
  | typed part =>
    rw [said] at content
    obtain ⟨field, type, declared, here⟩ := content
    exact ⟨field, type, declared, le type part here⟩

theorem Descriptor.Spells.imp {descriptor : Descriptor} {form : Form}
    (h : descriptor.Spells name form) : descriptor.Spells name' form := by
  cases h with
  | keyword word => exact .keyword word
  | boolean value => exact .boolean value
  | buffer => exact .buffer
  | view kind => exact .view kind
  | string value => exact .string value
  | number value => exact .number value
  | array here => exact .array (le _ _ here)
  | tuple here => exact .tuple (here.imp fun _ _ h => ⟨le _ _ h.1, h.2⟩)
  | object here index => exact .object (here.imp fun _ _ h => h.imp le) (index.imp le)
  | reference target arguments => exact .reference target arguments

end

/-- The parts in a form are names. -/
theorem Descriptor.Spells.exists_part {name : TypeId → String → Prop} {descriptor : Descriptor}
    {form : Form} (spells : descriptor.Spells name form) {part : String}
    (inside : part ∈ form.parts) : ∃ child, name child part := by
  cases spells with
  | array here =>
    obtain rfl := List.mem_singleton.1 inside
    exact ⟨_, here⟩
  | tuple here =>
    obtain ⟨element, listed, rfl⟩ := List.mem_map.1 inside
    obtain ⟨e, -, named, -⟩ := exists_left_of_forall₂ here listed
    exact ⟨_, named⟩
  | object here index =>
    rcases List.mem_append.1 inside with inside | inside
    · obtain ⟨member, listed, said⟩ := List.mem_filterMap.1 inside
      obtain ⟨property, -, -, -, content⟩ := exists_left_of_forall₂ here listed
      split at said
      · rename_i part' typed
        obtain rfl := Option.some.inj said
        rw [typed] at content
        obtain ⟨-, child, -, named⟩ := content
        exact ⟨child, named⟩
      · cases said
    · obtain ⟨child, -, named⟩ := exists_left_of_forall₂ index inside
      exact ⟨child, named⟩
  | _ => cases inside

section
variable {arena : Arena} {depth : Nat} {exact : Bool}

theorem Property.exists_member {property : Property} {text : String}
    (made : property.nameWith (typeNameWithin arena depth) [] exact = .ok text) :
    ∃ member : Member, text = member.text ∧
      property.Spells (fun type part => typeNameWithin arena depth [] exact type = .ok part)
        member := by
  have label : property.label = keyLabel property.name ++ optionalMark property.optional := rfl
  unfold Property.nameWith at made
  split at made
  · rename_i method
    refine ⟨⟨property.name, property.optional, .method⟩, ?_, rfl, rfl, method⟩
    rw [← Except.ok.inj made, label, String.append_assoc]
    rfl
  · rename_i field
    rw [Bool.not_eq_true] at field
    split at made
    · rename_i type declared
      obtain ⟨part, here, made⟩ := bind_eq_ok.1 made
      refine ⟨⟨property.name, property.optional, .typed part⟩, ?_, rfl, rfl, field, type, declared,
        here⟩
      rw [← Except.ok.inj made, label]
      simp only [Member.text, Content.text, String.append_assoc]
    · rename_i declared
      refine ⟨⟨property.name, property.optional, .untyped⟩, ?_, rfl, rfl, field, declared⟩
      rw [← Except.ok.inj made, label]
      simp only [Member.text, Content.text, String.append_empty]

theorem TupleElement.exists_part {element : TupleElement} {text : String}
    (made : element.nameWith (typeNameWithin arena depth) [] exact = .ok text) :
    ∃ part : String × Bool, text = part.1 ++ optionalMark part.2 ∧
      typeNameWithin arena depth [] exact element.type = .ok part.1 ∧
        element.optional = part.2 := by
  obtain ⟨part, here, made⟩ := bind_eq_ok.1 made
  refine ⟨(part, element.optional), ?_, here, rfl⟩
  rw [← Except.ok.inj made]
  cases element.optional <;> simp [optionalMark]

theorem exists_indexName {type : TypeId} {text : String}
    (made : (do return "[key: string]: " ++ (← typeNameWithin arena depth [] exact type) :
      Except CompileError String) = .ok text) :
    ∃ part, text = indexText part ∧ typeNameWithin arena depth [] exact type = .ok part := by
  obtain ⟨part, here, made⟩ := bind_eq_ok.1 made
  exact ⟨part, (Except.ok.inj made).symm, here⟩

theorem referenceNameWith_of_monomorphic {target : DefinitionId} {arguments : List TypeId}
    (simple : Descriptor.IsMonomorphic arena (.reference target arguments)) :
    referenceNameWith arena (typeNameWithin arena depth) [] exact target arguments =
      .ok (arena.definitionName target) := by
  unfold referenceNameWith
  cases leads : arena.definition? target with
  | none => rfl
  | some definition =>
    simp only [(simple definition leads).1, List.isEmpty_nil, if_true]
    rfl

/-- A type that is neither a union nor an intersection is named by its form. -/
theorem Descriptor.exists_form {descriptor : Descriptor}
    (monomorphic : descriptor.IsMonomorphic arena) (notUnion : descriptor.alternatives? = none)
    (notIntersection : descriptor.conjuncts? = none) {name : String}
    (made : descriptor.nameWith arena (typeNameWithin arena depth) [] exact = .ok name) :
    ∃ form : Form,
      descriptor.Spells (fun type part => typeNameWithin arena depth [] exact type = .ok part)
        form ∧ name = exactMark (exact && form.isMarked) ++ form.core arena := by
  have unmarked {form : Form} (plain : form.isMarked = false) {text : String}
      (same : form.core arena = text) :
      text = exactMark (exact && form.isMarked) ++ form.core arena := by
    rw [plain, Bool.and_false, same]
    simp [exactMark]
  cases descriptor with
  | keyword word => exact ⟨_, .keyword word, unmarked rfl (Except.ok.inj made)⟩
  | booleanLiteral value => exact ⟨_, .boolean value, unmarked rfl (Except.ok.inj made)⟩
  | buffer => exact ⟨_, .buffer, unmarked rfl (Except.ok.inj made)⟩
  | view kind => exact ⟨_, .view kind, unmarked rfl (Except.ok.inj made)⟩
  | stringLiteral value => exact ⟨_, .string value, unmarked rfl (Except.ok.inj made)⟩
  | numberLiteral value => exact ⟨_, .number value, unmarked rfl (Except.ok.inj made)⟩
  | array element =>
    obtain ⟨part, here, made⟩ := bind_eq_ok.1 made
    exact ⟨_, .array here, unmarked rfl (Except.ok.inj made)⟩
  | tuple elements =>
    obtain ⟨texts, here, made⟩ := bind_eq_ok.1 made
    obtain ⟨parts, rfl, spelled⟩ :=
      exists_map_of_forall₂ (mapM_eq_ok.1 here) fun _ _ => TupleElement.exists_part
    exact ⟨_, .tuple spelled, unmarked rfl (Except.ok.inj made)⟩
  | object shape =>
    obtain ⟨inner, here, made⟩ := bind_eq_ok.1 made
    obtain ⟨texts, properties, here⟩ := bind_eq_ok.1 here
    obtain ⟨indexTexts, others, here⟩ := bind_eq_ok.1 here
    obtain ⟨members, rfl, spelled⟩ :=
      exists_map_of_forall₂ (mapM_eq_ok.1 properties) fun _ _ => Property.exists_member
    obtain ⟨names, rfl, indexSpelled⟩ :=
      exists_map_of_forall₂ (mapM_eq_ok.1 others) fun _ _ => exists_indexName
    obtain ⟨index, rfl⟩ := exists_toList_of_forall₂ indexSpelled
    refine ⟨.object members index, .object spelled indexSpelled, ?_⟩
    rw [← Except.ok.inj made, ← Except.ok.inj here]
    simp [Form.isMarked, Form.core]
  | reference target arguments =>
    obtain ⟨base, here, made⟩ := bind_eq_ok.1 made
    rw [referenceNameWith_of_monomorphic monomorphic] at here
    obtain rfl := Except.ok.inj here
    refine ⟨_, .reference target arguments, ?_⟩
    rw [← Except.ok.inj made]
    simp [Form.isMarked, Form.core]
  | union => cases notUnion
  | intersection => cases notIntersection
  | parameter | indexAccess | keyof => exact monomorphic.elim

end

/-! ## Joined names -/

section
variable {stops : List Char}

theorem isPiece_exactMark (free : ∀ c ∈ "exact ".toList, c ∉ stops) (exact : Bool) {text : String}
    (h : Text.IsPiece stops text) : Text.IsPiece stops (exactMark exact ++ text) := by
  refine ⟨fun empty => h.1 (String.append_eq_empty_iff.1 empty).2, ?_⟩
  rw [String.toList_append]
  refine Text.Closed.append ?_ h.2
  cases exact with
  | false => exact .nil
  | true =>
    have plain : ∀ c ∈ "exact ".toList, Text.isMark c = false := by decide
    exact .of_chars fun c inside => ⟨plain c inside, free c inside⟩

theorem sortUnique_ne_nil {texts : List String} (h : texts ≠ []) : Text.sortUnique texts ≠ [] := by
  obtain ⟨text, inside⟩ := List.exists_mem_of_ne_nil texts h
  exact List.ne_nil_of_mem (Text.mem_sortUnique.2 inside)

theorem isPiece_intercalate {separator : String} (closed : Text.Closed stops separator.toList)
    {texts : List String} (some : texts ≠ []) (h : ∀ text ∈ texts, Text.IsPiece stops text) :
    Text.IsPiece stops (separator.intercalate texts) := by
  refine ⟨?_, Text.closed_intercalate closed fun text inside => (h text inside).2⟩
  cases texts with
  | nil => exact absurd rfl some
  | cons text rest => exact Text.intercalate_ne_empty (h text (by simp)).1 rest

end

/-! ## Legible types -/

/-- The name of the descriptor tells how its parts are put together: unions are not members of
intersections, and an intersection that is checked for superfluous keys has members of different
names. -/
def Descriptor.IsLegible (arena : Arena) (exact : Bool) : Descriptor → Prop
  | .intersection members =>
    members ≠ [] ∧ (∀ member ∈ members, ∀ inner, arena.lookup? member ≠ some (.union inner)) ∧
      (exact = true → ∃ one ∈ members, ∃ two ∈ members,
        ∀ name, arena.HasName false one name → ¬ arena.HasName false two name)
  | _ => True

/-- The goals are closed under parts, and their names tell how types are put together. -/
structure Arena.Legible (arena : Arena) (Good : Goal → Prop) : Prop where
  named : arena.NamedByIdentifiers
  closed : ∀ goal part, Good goal → goal.Needs arena part → Good part
  monomorphic : ∀ type exact, Good (.ofType type exact) → ∀ descriptor,
    arena.lookup? type = some descriptor → descriptor.IsMonomorphic arena
  legible : ∀ type exact, Good (.ofType type exact) → ∀ descriptor,
    arena.lookup? type = some descriptor → descriptor.IsLegible arena exact

namespace Arena.Legible

variable {arena : Arena} {Good : Goal → Prop} (h : arena.Legible Good) {type : TypeId} {exact : Bool}
include h

/-- The parts of a form are types among the goals. -/
theorem spells_good {name : TypeId → String → Prop} (good : Good (.ofType type exact))
    {descriptor : Descriptor} (found : arena.lookup? type = some descriptor) {form : Form}
    (spells : descriptor.Spells name form) :
    descriptor.Spells (fun child part => name child part ∧ Good (.ofType child exact)) form := by
  cases spells with
  | keyword word => exact .keyword word
  | boolean value => exact .boolean value
  | buffer => exact .buffer
  | view kind => exact .view kind
  | string value => exact .string value
  | number value => exact .number value
  | reference target arguments => exact .reference target arguments
  | array here => exact .array ⟨here, h.closed _ _ good (.array found)⟩
  | tuple here =>
    refine .tuple (((List.forall₂_and_left _ _).2 ⟨fun element inside => ?_, here⟩).imp
      fun _ _ same => ⟨⟨same.2.1, same.1⟩, same.2.2⟩)
    have there := h.closed _ _ good (.element found inside)
    split at there
    · exact h.closed _ _ there (.optional _ _)
    · exact there
  | object here index =>
    refine .object (((List.forall₂_and_left _ _).2 ⟨fun property inside => inside, here⟩).imp
      fun property member same => ?_)
      (((List.forall₂_and_left _ _).2 ⟨fun child inside => ?_, index⟩).imp
        fun _ _ same => ⟨same.2, same.1⟩)
    · obtain ⟨inside, key, optional, content⟩ := same
      obtain ⟨inside, texts⟩ := List.mem_filter.1 inside
      refine ⟨key, optional, ?_⟩
      cases said : member.content with
      | untyped | method =>
        rw [said] at content
        exact content
      | typed part =>
        rw [said] at content
        obtain ⟨field, child, declared, named⟩ := content
        exact ⟨field, child, declared, named, h.closed _ _ good
          (.property found inside (by simpa using texts) field declared)⟩
    · exact h.closed _ _ good (.index found (Option.mem_toList.1 inside))

/-- Names of types can stand between the separators of objects and tuples. -/
theorem isPiece_within {depth : Nat} {name : String} (good : Good (.ofType type exact))
    (made : typeNameWithin arena depth [] exact type = .ok name) : Text.IsPiece typeStops name := by
  induction depth generalizing type exact name with
  | zero => cases made
  | succ depth ih =>
    obtain ⟨below, descriptor, same, found, made⟩ := nameWith_of_within made
    obtain rfl := Nat.succ.inj same
    have monomorphic := h.monomorphic type exact good descriptor found
    have joined {separator : String} (closed : Text.Closed typeStops separator.toList)
        {members : List TypeId} {exact' : Bool} (some : members ≠ [])
        (goods : ∀ member ∈ members, Good (.ofType member exact')) {text : String}
        (made : membersNameWith (typeNameWithin arena depth) [] exact' separator members = .ok text) :
        Text.IsPiece typeStops text := by
      obtain ⟨names, each, made⟩ := bind_eq_ok.1 made
      have related := mapM_eq_ok.1 each
      rw [← Except.ok.inj made]
      refine isPiece_intercalate closed (sortUnique_ne_nil ?_) fun text inside => ?_
      · rintro rfl
        exact some (List.forall₂_nil_right_iff.1 related)
      · obtain ⟨member, listed, here⟩ :=
          exists_left_of_forall₂ related (Text.mem_sortUnique.1 inside)
        exact ih (goods member listed) here
    cases descriptor with
    | union members =>
      exact joined (.of_chars (by decide)) monomorphic
        (fun member inside => h.closed _ _ good (.union found inside)) made
    | intersection members =>
      obtain ⟨text, here, made⟩ := bind_eq_ok.1 made
      have legible := h.legible type exact good _ found
      rw [← Except.ok.inj made]
      exact isPiece_exactMark (by decide) exact (joined (.of_chars (by decide)) legible.1
        (fun member inside => h.closed _ _ good (.intersection found inside)) here)
    | _ =>
      obtain ⟨form, spells, rfl⟩ := Descriptor.exists_form monomorphic rfl rfl made
      refine isPiece_exactMark (by decide) _ ?_
      have piece := Form.isPiece_core h.named fun part inside => by
        obtain ⟨child, named, good⟩ := (h.spells_good good found spells).exists_part inside
        exact ih good named
      exact ⟨piece.1, piece.2.mono typeStops_subset⟩

end Arena.Legible

end ShapeCheck
