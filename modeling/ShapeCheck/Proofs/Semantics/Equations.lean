import ShapeCheck.Proofs.Meaning.Alike
import ShapeCheck.Proofs.Narrowing.Subjects

set_option autoImplicit false

/-! # The values of a type in its place

A type is read with what its parameters stand for. Its values are told by an equation for each kind of
type, in terms of the values of its parts: a parameter has the values of what it stands for, a reference
those of the contents of its definition, and an access those of the members that its keys select.
`Arena.Contains` is the largest family of values that satisfies these equations.

The equations do not mention how deep the instantiations around a type are nested. Where keys are collected
or members selected, that may fail for one reading and succeed for another one that is alike, and then the
result of the other one counts.

Main facts: `Arena.equation_transfer` (types that are alike have equations that say the same, and those
without the check for superfluous keys say less), `Arena.contains_iff`, `Arena.Contains.of_alike` and
`Arena.Contains.loosely`.
-/

namespace ShapeCheck

/-! ## Equations -/

/-- Which values have a type, checked for superfluous keys or not. -/
abbrev Family := Bool → Reading → Value → Prop

namespace Arena

/-- The keys of a type, as they are collected for some reading of it. -/
def Collects (arena : Arena) (a : Reading) (keys? : KeySet) : Prop :=
  ∃ b options depth, arena.Alike a b ∧ Context.collectKeys ⟨arena, options, b.1⟩ depth b.2 = .ok keys?

/-- The members that an access selects, as they are selected for some reading of it. -/
def Chooses (arena : Arena) (a index : Reading) (choices : List Choice) : Prop :=
  ∃ s whole' index' options depth lists, arena.Alike a (s, whole') ∧ arena.Alike index (s, index') ∧
    arena.choices options depth s whole' index' = .ok lists ∧ choices = lists.flatten

end Arena

section
variable (arena : Arena) (A : Family) (exact : Bool) (v : Value)

/-- The value of a member that may be left out. -/
def Choice.Fits (choice : Choice) : Prop :=
  (choice.optional = true ∧ v = .undefined) ∨ A exact choice.reading v

/-- The values of what a definition contains: of its body, or of its merged shape if it extends others. -/
inductive Definition.Fits (s : Substitution) (definition : Definition) : Prop
  | body {body : TypeId} (plain : definition.bases = []) (given : definition.body = some body)
      (here : A exact (s, body) v)
  | merged {shape : ObjectShape} (derived : definition.bases ≠ [])
      (merged : arena.mergedShape definition = .ok shape)
      (here : shape.Admits (fun part exact => A exact (s, part)) exact v)

/-- The values that are one of the keys, or any text or number if the keys are open. -/
def KeySet.Fits (v : Value) : KeySet → Prop
  | some keys => ∃ key ∈ keys, v = .string key
  | none => v.typeOf = "string" ∨ v.typeOf = "number"

/-- The values of a descriptor, where `A` says which values have the types of its parts. A union without
members has all values. -/
def Descriptor.Fits (a : Reading) : Descriptor → Prop
  | .union members => members = [] ∨ ∃ member ∈ members, A exact (a.1, member) v
  | .intersection members => (∀ member ∈ members, A false (a.1, member) v) ∧
      (exact = true → ∀ keys, arena.Collects a (some keys) → v.IsObject → ∀ key ∈ v.keys, key ∈ keys)
  | .reference target arguments => ∃ definition bindings, arena.definition? target = some definition ∧
      Instantiation.ofArguments arena definition arguments = .ok bindings ∧
        definition.Fits arena A exact v (a.1.within bindings)
  | .indexAccess whole index => ∃ choices, arena.Chooses (a.1, whole) (a.1, index) choices ∧
      ∃ choice ∈ choices, choice.Fits A exact v
  | .keyof operand => ∃ keys?, arena.Collects (a.1, operand) keys? ∧ keys?.Fits v
  | descriptor => descriptor.Admits (fun part exact => A exact (a.1, part)) exact v arena a.2

end

namespace Arena

/-- The values of a type, where `A` says which values have the types of its parts. -/
def Equation (arena : Arena) (A : Family) (exact : Bool) (a : Reading) (v : Value) : Prop :=
  ∃ b descriptor, arena.StandsFor a b ∧ arena.lookup? b.2 = some descriptor ∧
    descriptor.Fits arena A exact v b

/-- The values of a type: those of the largest family that is contained in its own equations. -/
def Contains (arena : Arena) (exact : Bool) (a : Reading) (v : Value) : Prop :=
  ∃ P : Family, (∀ exact a v, P exact a v → arena.Equation P exact a v) ∧ P exact a v

end Arena

/-! ## Equations of types that are alike -/

namespace Arena

variable {arena : Arena}

theorem Collects.of_alike {a b : Reading} {keys? : KeySet} (h : arena.Collects b keys?)
    (alike : arena.Alike a b) : arena.Collects a keys? :=
  let ⟨c, options, depth, alike', collected⟩ := h
  ⟨c, options, depth, alike.trans alike', collected⟩

theorem Collects.unique {a : Reading} {keys? keys?' : KeySet} (h : arena.Collects a keys?)
    (h' : arena.Collects a keys?') : keys? = keys?' := by
  obtain ⟨b, options, depth, alike, collected⟩ := h
  obtain ⟨b', options', depth', alike', collected'⟩ := h'
  exact ((alike.symm.trans alike').collectKeys options options' depth depth').related collected collected'

theorem Chooses.of_alike {a a' index index' : Reading} {choices : List Choice}
    (h : arena.Chooses a' index' choices) (alike : arena.Alike a a') (alike' : arena.Alike index index') :
    arena.Chooses a index choices :=
  let ⟨s, whole, key, options, depth, lists, same, same', rest⟩ := h
  ⟨s, whole, key, options, depth, lists, alike.trans same, alike'.trans same', rest⟩

theorem Chooses.related (number : arena.lookup? (.ofKeyword .number) = some (.keyword .number))
    {a index : Reading} {choices choices' : List Choice} (h : arena.Chooses a index choices)
    (h' : arena.Chooses a index choices') : List.Forall₂ (Choice.Alike arena) choices choices' := by
  obtain ⟨s, whole, key, options, depth, lists, wholes, keys, chosen, rfl⟩ := h
  obtain ⟨s', whole', key', options', depth', lists', wholes', keys', chosen', rfl⟩ := h'
  have related := (Arena.Alike.choices number (wholes.symm.trans wholes') (keys.symm.trans keys') options
    options' depth depth').related chosen chosen'
  exact List.rel_flatten related

end Arena

/-- One family passes on to another what it says of readings that are alike, and what it says with the
check for superfluous keys also without. -/
def Family.Passes (arena : Arena) (A B : Family) : Prop :=
  ∀ exact exact' a b v, arena.Alike a b → (exact' = true → exact = true) → A exact a v → B exact' b v

section
variable {arena : Arena} {A B : Family} (passes : A.Passes arena B) {exact exact' : Bool}
  (weaker : exact' = true → exact = true) {s s' : Substitution} {v : Value}
include passes weaker

theorem Choice.Fits.transfer {choice choice' : Choice} (h : choice.Fits A exact v)
    (alike : choice.Alike arena choice') : choice'.Fits B exact' v :=
  h.imp (fun ⟨optional, absent⟩ => ⟨alike.optional ▸ optional, absent⟩)
    (passes _ _ _ _ _ alike.reading weaker)

theorem TupleElement.AllAdmit.transfer {elements elements' : List TupleElement}
    (h : AllAdmit (fun part exact => A exact (s, part)) exact v elements)
    (related : List.Forall₂ (Pairs fun part part' => arena.Alike (s, part) (s', part')) elements
      elements') : AllAdmit (fun part exact => B exact (s', part)) exact' v elements' := by
  have least : minLength elements = minLength elements' := by
    unfold minLength
    clear h
    induction related with
    | nil => rfl
    | cons here _ ih => rw [List.findIdx_cons, List.findIdx_cons, here.optional, ih]
  refine ⟨h.isArray, least ▸ h.least, related.length_eq ▸ h.most, fun position element' listed' => ?_⟩
  obtain ⟨element, listed, pair⟩ := exists_getElem?_of_forall₂ related.flip listed'
  exact (h.elements position element listed).imp (fun ⟨optional, absent⟩ => ⟨pair.optional ▸ optional, absent⟩)
    (passes _ _ _ _ _ pair.type weaker)

theorem Property.Admits.transfer {property property' : Property}
    (h : property.Admits (fun part exact => A exact (s, part)) exact v)
    (pair : property.Pairs (fun part part' => arena.Alike (s, part) (s', part')) property') :
    property'.Admits (fun part exact => B exact (s', part)) exact' v := by
  intro texts field part' typed'
  obtain ⟨part, typed, alike⟩ : ∃ part, property.type = some part ∧ arena.Alike (s, part) (s', part') := by
    have types := pair.type
    rw [typed'] at types
    cases typed : property.type with
    | none =>
      rw [typed] at types
      cases types
    | some part =>
      rw [typed] at types
      cases types with
      | some alike => exact ⟨part, rfl, alike⟩
  have here := h (pair.symbolKeyed.trans texts) (pair.method.trans field) part typed
  rw [← pair.optional, ← pair.name]
  split
  · rename_i optional
    rw [if_pos optional] at here
    exact here.imp_right (passes _ _ _ _ _ alike weaker)
  · rename_i required
    rw [if_neg required] at here
    exact here.imp_right (passes _ _ _ _ _ alike weaker)

theorem ObjectShape.Admits.transfer {shape shape' : ObjectShape}
    (h : shape.Admits (fun part exact => A exact (s, part)) exact v)
    (pairs : shape.Pairs (fun part part' => arena.Alike (s, part) (s', part')) shape') :
    shape'.Admits (fun part exact => B exact (s', part)) exact' v where
  isObject := h.isObject
  notArray := h.notArray
  properties property' inside' := by
    obtain ⟨property, inside, pair⟩ := exists_left_of_forall₂ pairs.properties inside'
    exact (h.properties property inside).transfer passes weaker pair
  index part' indexed' key own := by
    have index := pairs.index
    rw [indexed'] at index
    cases indexed : shape.index with
    | none =>
      rw [indexed] at index
      cases index
    | some part =>
      rw [indexed] at index
      cases index with
      | some alike => exact passes _ _ _ _ _ alike weaker (h.index part indexed key own)
  declared none exact key own := by
    have index := pairs.index
    rw [none] at index
    have unsigned : shape.index = Option.none := by
      cases indexed : shape.index with
      | none => rfl
      | some part =>
        rw [indexed] at index
        cases index
    obtain ⟨property, inside, texts, same⟩ := h.declared unsigned (weaker exact) key own
    obtain ⟨property', inside', pair⟩ := exists_right_of_forall₂ pairs.properties inside
    exact ⟨property', inside', pair.symbolKeyed ▸ texts, pair.name ▸ same⟩

/-- Definitions whose contents are alike contain the same. -/
theorem Definition.Fits.transfer {definition : Definition} (h : definition.Fits arena A exact v s)
    (alike : arena.AlikeInside definition s s') : definition.Fits arena B exact' v s' := by
  cases h with
  | body plain given here => exact .body plain given (passes _ _ _ _ _ (alike _ (.inl given)) weaker here)
  | merged derived merged here =>
    refine .merged derived merged (here.transfer passes weaker (ObjectShape.Pairs.self fun part listed => ?_))
    exact alike part (.inr (.inr ⟨_, merged, listed⟩))

/-- Descriptors that say the same of parts that are alike have the same values. -/
theorem Descriptor.Fits.transfer {type type' : TypeId} {descriptor descriptor' : Descriptor}
    (h : descriptor.Fits arena A exact v (s, type)) (alike : arena.Alike (s, type) (s', type'))
    (form : arena.SameForm arena.Alike s s' descriptor descriptor') :
    descriptor'.Fits arena B exact' v (s', type') := by
  cases form with
  | @plain descriptor isPlain => cases descriptor <;> first | exact isPlain.elim | exact h
  | array related => exact ⟨h.1, fun i small => passes _ _ _ _ _ related weaker (h.2 i small)⟩
  | tuple related => exact TupleElement.AllAdmit.transfer passes weaker h related
  | object related => exact ObjectShape.Admits.transfer passes weaker h related
  | union related =>
    refine h.imp (fun none => ?_) fun ⟨member, inside, here⟩ => ?_
    · subst none
      exact List.forall₂_nil_left_iff.1 related
    · obtain ⟨member', inside', alike⟩ := exists_right_of_forall₂ related inside
      exact ⟨member', inside', passes _ _ _ _ _ alike weaker here⟩
  | intersection related =>
    refine ⟨fun member' inside' => ?_, fun exact keys collected => ?_⟩
    · obtain ⟨member, inside, alike⟩ := exists_left_of_forall₂ related inside'
      exact passes _ _ _ _ _ alike id (h.1 member inside)
    · exact h.2 (weaker exact) keys (collected.of_alike alike)
  | reference same =>
    obtain ⟨definition, bindings, leads, bound, fits⟩ := h
    obtain rfl := same.leads
    have contents := same.contents definition leads
    rw [bound] at contents
    cases bound' : Instantiation.ofArguments arena definition _ with
    | error e =>
      rw [bound'] at contents
      exact contents.elim
    | ok bindings' =>
      rw [bound'] at contents
      exact ⟨definition, bindings', leads, bound', fits.transfer passes weaker contents⟩
  | parameter impossible => exact impossible.elim
  | indexAccess wholes indexes =>
    obtain ⟨choices, chosen, choice, inside, fits⟩ := h
    refine ⟨choices, chosen.of_alike wholes.symm indexes.symm, choice, inside, ?_⟩
    exact fits.transfer passes weaker ⟨.refl arena _, rfl⟩
  | keyof related =>
    obtain ⟨keys?, collected, fits⟩ := h
    exact ⟨keys?, collected.of_alike related.symm, fits⟩

/-- Types that are alike have equations that say the same. -/
theorem Arena.equation_transfer {a b : Reading} (h : arena.Equation A exact a v)
    (alike : arena.Alike a b) : arena.Equation B exact' b v := by
  obtain ⟨a', descriptor, stands, found, fits⟩ := h
  obtain ⟨b', stands', forms⟩ := (Arena.isSameness_alike arena).unfold alike stands
  rw [found] at forms
  cases found' : arena.lookup? b'.2 with
  | none =>
    rw [found'] at forms
    cases forms
  | some descriptor' =>
    rw [found'] at forms
    cases forms with
    | some form =>
      refine ⟨b', descriptor', stands', found', fits.transfer passes weaker ?_ form⟩
      exact stands.alike.symm.trans (alike.trans stands'.alike)

end

/-! ## The largest family -/

namespace Arena

variable {arena : Arena} {exact : Bool} {a b : Reading} {v : Value}

/-- A family that is contained in its equations up to readings that are alike, and up to the check for
superfluous keys, consists of values of the types. -/
theorem Contains.of_closed {P : Family} (closed : ∀ exact a v, P exact a v → arena.Equation P exact a v)
    {exact' : Bool} (weaker : exact' = true → exact = true) (alike : arena.Alike a b) (h : P exact a v) :
    arena.Contains exact' b v := by
  refine ⟨fun exact' b v => ∃ exact a, arena.Alike a b ∧ (exact' = true → exact = true) ∧ P exact a v, ?_,
    exact, a, alike, weaker, h⟩
  rintro exact' b v ⟨exact, a, alike, weaker, h⟩
  refine equation_transfer (A := P) (fun exact exact' a b v alike weaker h => ?_) weaker (closed _ _ _ h) alike
  exact ⟨exact, a, alike, weaker, h⟩

/-- Types that are alike have the same values, and no fewer without the check for superfluous keys. -/
theorem Contains.of_alike (h : arena.Contains exact a v) (alike : arena.Alike a b) :
    arena.Contains exact b v :=
  let ⟨_, closed, here⟩ := h
  .of_closed closed id alike here

theorem Contains.loosely (h : arena.Contains exact a v) : arena.Contains false a v :=
  let ⟨_, closed, here⟩ := h
  .of_closed closed nofun (.refl arena a) here

theorem contains_passes (arena : Arena) : Family.Passes arena arena.Contains arena.Contains := by
  rintro exact exact' a b v alike weaker ⟨P, closed, here⟩
  exact .of_closed closed weaker alike here

/-- The values of a type satisfy its equation. -/
theorem contains_iff : arena.Contains exact a v ↔ arena.Equation arena.Contains exact a v := by
  have inside (exact : Bool) (a : Reading) (v : Value) (h : arena.Contains exact a v) :
      arena.Equation arena.Contains exact a v := by
    obtain ⟨P, closed, here⟩ := h
    refine equation_transfer (A := P) (fun _ _ _ _ _ alike weaker here => ?_) id (closed _ _ _ here)
      (.refl arena a)
    exact .of_closed closed weaker alike here
  refine ⟨inside exact a v, fun h => ⟨arena.Equation arena.Contains, fun exact a v h => ?_, h⟩⟩
  refine equation_transfer (A := arena.Contains) (fun _ _ _ _ _ alike weaker here => ?_) id h (.refl arena a)
  exact equation_transfer (contains_passes arena) weaker (inside _ _ _ here) alike

end Arena

end ShapeCheck
