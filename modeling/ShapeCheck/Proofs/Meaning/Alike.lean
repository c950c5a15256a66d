import ShapeCheck.Proofs.Meaning.Keys
import ShapeCheck.Proofs.Naming.Names

set_option autoImplicit false

/-! # Descriptors of one form

Descriptors that are spelled by one form differ in the order of members and in their parts, and the
parts are named alike. So a value has both or none of the types, if that can be said of the parts.

Main facts: `Descriptor.alike_of_spells`, `Descriptor.Alike.admits` and `Descriptor.Alike.hasKey`.
-/

namespace ShapeCheck

variable {arena : Arena}

/-! ## Twins -/


section
variable (name name' : TypeId → String → Prop)

/-- The types have a name in common. -/
def Twins (type type' : TypeId) : Prop := ∃ part, name type part ∧ name' type' part

/-- The members are named alike, with twins for their types. -/
structure Property.Alike (property property' : Property) : Prop where
  sameName : property.name = property'.name
  sameOptional : property.optional = property'.optional
  sameMethod : property.method = property'.method
  twins : property.method = false → ∀ type, property.type = some type →
    ∃ type', property'.type = some type' ∧ Twins name name' type type'

/-- Neither a number nor made of parts. -/
def Descriptor.isLeaf : Descriptor → Bool
  | keyword _ | stringLiteral _ | booleanLiteral _ | buffer | view _ => true
  | _ => false

/-- The descriptors are alike up to the order of members, with twins for their parts; where the check
for superfluous keys matters, it is made for both or for none. -/
inductive Descriptor.Alike (exact exact' : Bool) : Descriptor → Descriptor → Prop
  | leaf {descriptor : Descriptor} : descriptor.isLeaf = true → Alike exact exact' descriptor descriptor
  | number {value value' : Double} : value.text = value'.text →
      Alike exact exact' (.numberLiteral value) (.numberLiteral value')
  | array {element element' : TypeId} : Twins name name' element element' →
      Alike exact exact' (.array element) (.array element')
  | tuple {elements elements' : List TupleElement} :
      List.Forall₂ (fun element element' => element.optional = element'.optional ∧
        Twins name name' element.type element'.type) elements elements' →
          Alike exact exact' (.tuple elements) (.tuple elements')
  | object {shape shape' : ObjectShape} : exact = exact' →
      (∀ property ∈ shape.properties, property.symbolKeyed = false →
        ∃ property' ∈ shape'.properties, property'.symbolKeyed = false ∧
          property.Alike name name' property') →
      (∀ property' ∈ shape'.properties, property'.symbolKeyed = false →
        ∃ property ∈ shape.properties, property.symbolKeyed = false ∧
          property.name = property'.name) →
      List.Forall₂ (Twins name name') shape.index.toList shape'.index.toList →
        Alike exact exact' (.object shape) (.object shape')
  | reference (target : DefinitionId) (arguments arguments' : List TypeId) : exact = exact' →
      Alike exact exact' (.reference target arguments) (.reference target arguments')

end

section
variable {name name' : TypeId → String → Prop}

theorem forall₂_trans {α β γ : Type} {R : α → γ → Prop} {S : β → γ → Prop} {as : List α}
    {bs : List β} {cs : List γ} (h : List.Forall₂ R as cs) (h' : List.Forall₂ S bs cs) :
    List.Forall₂ (fun a b => ∃ c, R a c ∧ S b c) as bs := by
  induction h generalizing bs with
  | nil =>
    cases h'
    exact .nil
  | cons here _ ih =>
    cases h' with
    | cons here' there => exact .cons ⟨_, here, here'⟩ (ih there)

theorem Property.alike_of_spells {property property' : Property} {member : Member}
    (spells : property.Spells name member) (spells' : property'.Spells name' member) :
    property.Alike name name' property' := by
  obtain ⟨key, optional, content⟩ := spells
  obtain ⟨key', optional', content'⟩ := spells'
  refine ⟨key.symm.trans key', optional.symm.trans optional', ?_, ?_⟩
  · cases said : member.content with
    | method =>
      rw [said] at content content'
      exact content.trans content'.symm
    | untyped | typed =>
      rw [said] at content content'
      exact content.1.trans content'.1.symm
  · intro field type declared
    cases said : member.content with
    | method =>
      rw [said] at content
      cases content.symm.trans field
    | untyped =>
      rw [said] at content
      cases content.2.symm.trans declared
    | typed part =>
      rw [said] at content content'
      obtain ⟨-, type', declared', named⟩ := content
      obtain rfl := Option.some.inj (declared.symm.trans declared')
      obtain ⟨-, type', declared', named'⟩ := content'
      exact ⟨type', declared', part, named, named'⟩

theorem Descriptor.alike_of_spells {descriptor descriptor' : Descriptor} {form form' : Form}
    {exact exact' : Bool} (spells : descriptor.Spells name form)
    (spells' : descriptor'.Spells name' form') (alike : form.Alike form')
    (marked : form.isMarked = true → exact = exact') :
    Alike name name' exact exact' descriptor descriptor' := by
  cases spells with
  | keyword | boolean | buffer | view | string =>
    obtain rfl := show _ = form' from alike
    cases spells'
    exact .leaf rfl
  | number value =>
    obtain ⟨value', rfl, same⟩ := show ∃ value', form' = .number value' ∧ _ from alike
    cases spells'
    exact .number same
  | array here =>
    obtain rfl := show _ = form' from alike
    cases spells' with
    | array here' => exact .array ⟨_, here, here'⟩
  | tuple here =>
    obtain rfl := show _ = form' from alike
    cases spells' with
    | tuple here' =>
      refine .tuple ((forall₂_trans here here').imp fun element element' same => ?_)
      obtain ⟨part, ⟨named, optional⟩, named', optional'⟩ := same
      exact ⟨optional.trans optional'.symm, part.1, named, named'⟩
  | reference target arguments =>
    obtain rfl := show _ = form' from alike
    cases spells' with
    | reference _ arguments' => exact .reference target arguments arguments' (marked rfl)
  | @object shape members index here others =>
    obtain ⟨members', rfl, same⟩ := show ∃ members', form' = .object members' index ∧ _ from alike
    cases spells' with
    | @object shape' _ _ here' others' =>
      refine .object (marked rfl) ?_ ?_ (forall₂_trans others others')
      · intro property inside texts
        obtain ⟨member, listed, spelled⟩ :=
          exists_right_of_forall₂ here (List.mem_filter.2 ⟨inside, by simp [texts]⟩)
        obtain ⟨property', inside', spelled'⟩ :=
          exists_left_of_forall₂ here' ((same member).1 listed)
        obtain ⟨inside', texts'⟩ := List.mem_filter.1 inside'
        exact ⟨property', inside', by simpa using texts', Property.alike_of_spells spelled spelled'⟩
      · intro property' inside' texts'
        obtain ⟨member, listed, spelled'⟩ :=
          exists_right_of_forall₂ here' (List.mem_filter.2 ⟨inside', by simp [texts']⟩)
        obtain ⟨property, inside, spelled⟩ :=
          exists_left_of_forall₂ here ((same member).2 listed)
        obtain ⟨inside, texts⟩ := List.mem_filter.1 inside
        exact ⟨property, inside, by simpa using texts, spelled.1.symm.trans spelled'.1⟩

/-! ## Meanings of alike descriptors -/

variable {exact exact' : Bool} {descriptor descriptor' : Descriptor}

theorem minLength_eq {elements elements' : List TupleElement}
    (h : List.Forall₂ (fun element element' => element.optional = element'.optional ∧
      Twins name name' element.type element'.type) elements elements') :
    TupleElement.minLength elements = TupleElement.minLength elements' := by
  unfold TupleElement.minLength
  induction h with
  | nil => rfl
  | cons here _ ih => rw [List.findIdx_cons, List.findIdx_cons, here.1, ih]

theorem exists_getElem?_of_forall₂ {α β : Type} {R : α → β → Prop} {as : List α} {bs : List β}
    (h : List.Forall₂ R as bs) {i : Nat} {a : α} (found : as[i]? = some a) :
    ∃ b, bs[i]? = some b ∧ R a b := by
  induction h generalizing i with
  | nil => cases found
  | cons here _ ih =>
    cases i with
    | zero =>
      obtain rfl := Option.some.inj found
      exact ⟨_, rfl, here⟩
    | succ i => exact ih found

/-- The values of the second descriptor are values of the first one. -/
theorem Descriptor.Alike.admits (alike : Alike name name' exact exact' descriptor descriptor')
    {A P : TypeId → Bool → Value → Prop} (le : ∀ type v, A type exact' v → P type exact' v)
    (part : ∀ type type', Twins name name' type type' → ∀ v, A type' exact' v → P type exact v)
    {v : Value} {type type' : TypeId} (here : descriptor'.Admits A exact' v arena type') :
    descriptor.Admits P exact v arena type := by
  cases alike with
  | leaf isLeaf => cases descriptor <;> first | exact here | cases isLeaf
  | number same =>
    obtain ⟨y, rfl, equal⟩ := here
    exact ⟨y, rfl, (Double.equals_of_text_eq same y).trans equal⟩
  | array twins => exact ⟨here.1, fun i small => part _ _ twins _ (here.2 i small)⟩
  | tuple twins =>
    refine ⟨here.isArray, ?_, ?_, fun position element listed => ?_⟩
    · rw [minLength_eq twins]
      exact here.least
    · rw [twins.length_eq]
      exact here.most
    · obtain ⟨element', listed', optional, twins⟩ := exists_getElem?_of_forall₂ twins listed
      refine (here.elements position element' listed').imp (fun absent => ?_) (part _ _ twins _)
      exact ⟨optional.trans absent.1, absent.2⟩
  | @object shape shape' same properties names index =>
    refine ⟨here.isObject, here.notArray, ?_, ?_, ?_⟩
    · intro property inside texts field type declared
      obtain ⟨property', inside', texts', twin⟩ := properties property inside texts
      obtain ⟨type', declared', twins⟩ := twin.twins field type declared
      have there := here.properties property' inside' texts' (twin.sameMethod ▸ field) type' declared'
      rw [twin.sameName, twin.sameOptional]
      split
      · rename_i optional
        rw [if_pos optional] at there
        exact there.imp_right (part _ _ twins _)
      · rename_i required
        rw [if_neg required] at there
        exact there.imp_right (part _ _ twins _)
    · intro type declared key own
      obtain ⟨type', declared', twins⟩ :=
        exists_right_of_forall₂ index (Option.mem_toList.2 declared)
      exact part _ _ twins _ (here.index type' (Option.mem_toList.1 declared') key own)
    · intro closed isExact key own
      have none' : shape'.index = none := by
        rw [closed] at index
        exact Option.toList_eq_nil_iff.1 (List.forall₂_nil_left_iff.1 index)
      obtain ⟨property', inside', texts', key⟩ := here.declared none' (same ▸ isExact) key own
      obtain ⟨property, inside, texts, sameName⟩ := names property' inside' texts'
      exact ⟨property, inside, texts, sameName.trans key⟩
  | reference target arguments arguments' same =>
    obtain ⟨definition, body, leads, given, there⟩ := here
    exact ⟨definition, body, leads, given, same ▸ le body v there⟩

/-! ## Keys of alike descriptors -/

section
variable (alike : Descriptor.Alike name name' exact exact' descriptor descriptor') {type type' : TypeId}
  (found : arena.lookup? type = some descriptor) (found' : arena.lookup? type' = some descriptor')
include alike found found'

theorem Descriptor.Alike.keySources : arena.keySources type = arena.keySources type' := by
  unfold Arena.keySources
  rw [found, found']
  cases alike with
  | leaf | number | array | tuple | object | reference => rfl

theorem Descriptor.Alike.openKeys : arena.OpenKeys type ↔ arena.OpenKeys type' := by
  have form : descriptor.isOpen = descriptor'.isOpen := by
    cases alike with
    | leaf | number | array | tuple | reference => rfl
    | @object shape shape' _ _ _ index =>
      have lengths := index.length_eq
      simp only [Descriptor.isOpen]
      cases first : shape.index <;> cases second : shape'.index <;> rw [first, second] at lengths <;>
        first | rfl | cases lengths
  rw [Arena.openKeys_iff found, Arena.openKeys_iff found', form, alike.keySources found found']

theorem Descriptor.Alike.hasKey {key : String} : arena.HasKey key type ↔ arena.HasKey key type' := by
  have form : (∃ shape, descriptor = .object shape ∧ key ∈ shape.keys) ↔
      ∃ shape, descriptor' = .object shape ∧ key ∈ shape.keys := by
    cases alike with
    | leaf isLeaf => rfl
    | number | array | tuple | reference => simp
    | object _ properties names =>
      simp only [Descriptor.object.injEq, exists_eq_left', ObjectShape.mem_keys]
      constructor
      · rintro ⟨property, inside, texts, rfl⟩
        obtain ⟨property', inside', texts', twin⟩ := properties property inside texts
        exact ⟨property', inside', texts', twin.sameName.symm⟩
      · rintro ⟨property', inside', texts', rfl⟩
        exact names property' inside' texts'
  rw [Arena.hasKey_iff found, Arena.hasKey_iff found', form, alike.keySources found found']

end

end

end ShapeCheck
