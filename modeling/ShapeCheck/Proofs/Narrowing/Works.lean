import ShapeCheck.Proofs.Semantics.Equations

set_option autoImplicit false

/-! # Types that can be compiled

A type that compiles satisfies a condition for each kind of type, and so do its parts: members have types
and methods are ignored, references lead to bodies, keys are found, accesses select members. A limit may
still stop the compilation, on how deep references are nested, so only some reading of the type, alike to
the one that is compiled, has to have a name, keys or members.

`Arena.Works` is the largest family of types that satisfy these conditions. It does not mention the check
for superfluous keys: without it a compilation asks for less.

Main facts: `Arena.Works.of_closed` and `Arena.works_iff`.
-/

namespace ShapeCheck

variable {arena : Arena}

/-! ## Conditions -/

namespace Arena

/-- Some reading of the type has a name. -/
def Spells (arena : Arena) (a : Reading) : Prop :=
  ∃ b exact depth name, arena.Alike a b ∧ typeNameWithin arena depth b.1 exact b.2 = .ok name

/-- The members that an access selects for some reading of it, where every key selects one. -/
def Fills (arena : Arena) (a index : Reading) (lists : List (List Choice)) : Prop :=
  ∃ s whole' index' options depth, arena.Alike a (s, whole') ∧ arena.Alike index (s, index') ∧
    arena.choices options depth s whole' index' = .ok lists ∧ AreFilled lists

end Arena

/-- Without the check for superfluous keys, all choices have one name. -/
def Choice.AllNamedAlike (arena : Arena) (choices : List Choice) : Prop :=
  ∀ one ∈ choices, ∀ two ∈ choices,
    Subject.NamedAlike arena (.ofChoice false one) (.ofChoice false two)

/-- Methods are ignored, and all other members have a type. -/
def ObjectShape.IsTyped (ignoreMethods : Bool) (shape : ObjectShape) : Prop :=
  ∀ property ∈ shape.properties, property.symbolKeyed = false →
    if property.method then ignoreMethods = true else property.type.isSome

section
variable (arena : Arena) (ignoreMethods : Bool) (P : Reading → Prop)

/-- The members can be checked, and their types can be compiled. -/
def ObjectShape.Works (s : Substitution) (shape : ObjectShape) : Prop :=
  shape.IsTyped ignoreMethods ∧ ∀ part, shape.Checks part → P (s, part)

/-- The body can be compiled, or the merged shape if the definition extends others. -/
inductive Definition.Works (s : Substitution) (definition : Definition) : Prop
  | body {body : TypeId} (plain : definition.bases = []) (given : definition.body = some body)
      (here : P (s, body))
  | merged {shape : ObjectShape} (derived : definition.bases ≠ [])
      (merged : arena.mergedShape definition = .ok shape) (here : shape.Works ignoreMethods P s)

/-- The descriptor can be compiled if its parts can. -/
def Descriptor.Works (a : Reading) : Descriptor → Prop
  | .array element => P (a.1, element)
  | .tuple elements => ∀ element ∈ elements, P (a.1, element.type)
  | .object shape => shape.Works ignoreMethods P a.1
  | .union members | .intersection members => ∀ member ∈ members, P (a.1, member)
  | .reference target arguments => ∃ definition bindings, arena.definition? target = some definition ∧
      Instantiation.ofArguments arena definition arguments = .ok bindings ∧
        definition.Works arena ignoreMethods P (a.1.within bindings)
  | .indexAccess whole index => ∃ lists, arena.Fills (a.1, whole) (a.1, index) lists ∧
      (∀ choice ∈ lists.flatten, P choice.reading) ∧
        (arena.Spells a ∨ Choice.AllNamedAlike arena lists.flatten)
  | .keyof operand => ∃ keys?, arena.Collects (a.1, operand) keys?
  | descriptor => descriptor.leaf?.isSome

/-- What the type stands for can be compiled and has a name, if the parts can be compiled. -/
def Arena.WorksAt (a : Reading) : Prop :=
  ∃ b descriptor, arena.StandsFor a b ∧ arena.lookup? b.2 = some descriptor ∧
    (descriptor.forwards = false → arena.Spells b) ∧ descriptor.Works arena ignoreMethods P b

/-- The type can be compiled as far as limits allow: the largest family that satisfies the conditions. -/
def Arena.Works (a : Reading) : Prop :=
  ∃ P : Reading → Prop, (∀ a, P a → arena.WorksAt ignoreMethods P a) ∧ P a

end

/-! ## Types that are alike -/

theorem Arena.Spells.of_alike {a b : Reading} (h : arena.Spells b) (alike : arena.Alike a b) :
    arena.Spells a :=
  let ⟨c, exact, depth, name, alike', spelled⟩ := h
  ⟨c, exact, depth, name, alike.trans alike', spelled⟩

theorem Arena.Fills.of_alike {a a' index index' : Reading} {lists : List (List Choice)}
    (h : arena.Fills a' index' lists) (alike : arena.Alike a a') (alike' : arena.Alike index index') :
    arena.Fills a index lists :=
  let ⟨s, whole, key, options, depth, wholes, keys, rest⟩ := h
  ⟨s, whole, key, options, depth, alike.trans wholes, alike'.trans keys, rest⟩

section
variable {ignoreMethods : Bool} {P P' : Reading → Prop}
  (passes : ∀ a b, arena.Alike a b → P a → P' b) {s s' : Substitution}

theorem ObjectShape.IsTyped.transfer {R : TypeId → TypeId → Prop} {shape shape' : ObjectShape}
    (h : shape.IsTyped ignoreMethods) (pairs : shape.Pairs R shape') : shape'.IsTyped ignoreMethods := by
  intro property' inside' texts
  obtain ⟨property, inside, pair⟩ := exists_left_of_forall₂ pairs.properties inside'
  have here := h property inside (pair.symbolKeyed.trans texts)
  rw [pair.method] at here
  split
  · rename_i method
    rwa [if_pos method] at here
  · rename_i field
    rw [if_neg field] at here
    have types := pair.type
    cases typed : property.type <;> cases typed' : property'.type <;> rw [typed, typed'] at types <;>
      cases types
    · rw [typed] at here
      cases here
    · rfl

theorem ObjectShape.Checks.exists_left {R : TypeId → TypeId → Prop} {shape shape' : ObjectShape}
    {part' : TypeId} (h : shape'.Checks part') (pairs : shape.Pairs R shape') :
    ∃ part, shape.Checks part ∧ R part part' := by
  rcases h with ⟨property', inside', texts, field, typed'⟩ | indexed'
  · obtain ⟨property, inside, pair⟩ := exists_left_of_forall₂ pairs.properties inside'
    have types := pair.type
    rw [typed'] at types
    cases typed : property.type with
    | none =>
      rw [typed] at types
      cases types
    | some part =>
      rw [typed] at types
      cases types with
      | some related =>
        exact ⟨part, .inl ⟨property, inside, pair.symbolKeyed.trans texts, pair.method.trans field, typed⟩,
          related⟩
  · have index := pairs.index
    rw [indexed'] at index
    cases indexed : shape.index with
    | none =>
      rw [indexed] at index
      cases index
    | some part =>
      rw [indexed] at index
      cases index with
      | some related => exact ⟨part, .inr indexed, related⟩

include passes

theorem ObjectShape.Works.transfer {shape shape' : ObjectShape} (h : shape.Works ignoreMethods P s)
    (pairs : shape.Pairs (fun part part' => arena.Alike (s, part) (s', part')) shape') :
    shape'.Works ignoreMethods P' s' := by
  refine ⟨h.1.transfer pairs, fun part' checks' => ?_⟩
  obtain ⟨part, checks, alike⟩ := checks'.exists_left pairs
  exact passes _ _ alike (h.2 part checks)

theorem Definition.Works.transfer {definition : Definition} (h : definition.Works arena ignoreMethods P s)
    (alike : arena.AlikeInside definition s s') : definition.Works arena ignoreMethods P' s' := by
  cases h with
  | body plain given here => exact .body plain given (passes _ _ (alike _ (.inl given)) here)
  | merged derived merged here =>
    refine .merged derived merged (here.transfer passes (ObjectShape.Pairs.self fun part listed => ?_))
    exact alike part (.inr (.inr ⟨_, merged, listed⟩))

/-- Descriptors that say the same of parts that are alike satisfy the same conditions. -/
theorem Descriptor.Works.transfer {type type' : TypeId} {descriptor descriptor' : Descriptor}
    (h : descriptor.Works arena ignoreMethods P (s, type)) (alike : arena.Alike (s, type) (s', type'))
    (form : arena.SameForm arena.Alike s s' descriptor descriptor') :
    descriptor'.Works arena ignoreMethods P' (s', type') := by
  cases form with
  | @plain descriptor isPlain => cases descriptor <;> first | exact isPlain.elim | exact h
  | array related => exact passes _ _ related h
  | tuple related =>
    intro element' inside'
    obtain ⟨element, inside, pair⟩ := exists_left_of_forall₂ related inside'
    exact passes _ _ pair.type (h element inside)
  | object related => exact ObjectShape.Works.transfer passes h related
  | union related | intersection related =>
    intro member' inside'
    obtain ⟨member, inside, alike⟩ := exists_left_of_forall₂ related inside'
    exact passes _ _ alike (h member inside)
  | reference same =>
    obtain ⟨definition, bindings, leads, bound, works⟩ := h
    obtain rfl := same.leads
    have contents := same.contents definition leads
    rw [bound] at contents
    cases bound' : Instantiation.ofArguments arena definition _ with
    | error e =>
      rw [bound'] at contents
      exact contents.elim
    | ok bindings' =>
      rw [bound'] at contents
      exact ⟨definition, bindings', leads, bound', works.transfer passes contents⟩
  | parameter impossible => exact impossible.elim
  | indexAccess wholes indexes =>
    obtain ⟨lists, fills, each, named⟩ := h
    refine ⟨lists, fills.of_alike wholes.symm indexes.symm, fun choice inside => ?_,
      named.imp_left fun spells => spells.of_alike alike.symm⟩
    exact passes _ _ (.refl arena _) (each choice inside)
  | keyof related =>
    obtain ⟨keys?, collected⟩ := h
    exact ⟨keys?, collected.of_alike related.symm⟩

/-- Types that are alike satisfy the same conditions. -/
theorem Arena.WorksAt.transfer {a b : Reading} (h : arena.WorksAt ignoreMethods P a)
    (alike : arena.Alike a b) : arena.WorksAt ignoreMethods P' b := by
  obtain ⟨a', descriptor, stands, found, spells, works⟩ := h
  obtain ⟨b', stands', forms⟩ := (Arena.isSameness_alike arena).unfold alike stands
  have same : arena.Alike a' b' := stands.alike.symm.trans (alike.trans stands'.alike)
  rw [found] at forms
  cases found' : arena.lookup? b'.2 with
  | none =>
    rw [found'] at forms
    cases forms
  | some descriptor' =>
    rw [found'] at forms
    cases forms with
    | some form =>
      refine ⟨b', descriptor', stands', found', fun plain => ?_, works.transfer passes same form⟩
      refine (spells ?_).of_alike same.symm
      cases form <;> first | rfl | exact plain

end

/-! ## The largest family -/

namespace Arena

variable {ignoreMethods : Bool} {a b : Reading}

/-- Types that satisfy the conditions up to others that are alike can be compiled. -/
theorem Works.of_closed {P : Reading → Prop}
    (closed : ∀ a, P a → arena.WorksAt ignoreMethods (fun a => ∃ b, arena.Alike b a ∧ P b) a)
    (alike : arena.Alike a b) (h : P a) : arena.Works ignoreMethods b := by
  refine ⟨fun b => ∃ a, arena.Alike a b ∧ P a, ?_, a, alike, h⟩
  rintro b ⟨a, alike, h⟩
  refine (closed a h).transfer (fun c d same ⟨e, same', h⟩ => ⟨e, same'.trans same, h⟩) alike

theorem Works.of_alike (h : arena.Works ignoreMethods a) (alike : arena.Alike a b) :
    arena.Works ignoreMethods b :=
  let ⟨_, closed, here⟩ := h
  .of_closed (fun _ there => (closed _ there).transfer (fun _ _ same here => ⟨_, same, here⟩) (.refl arena _))
    alike here

/-- A type that can be compiled satisfies the conditions. -/
theorem Works.conditions (h : arena.Works ignoreMethods a) :
    arena.WorksAt ignoreMethods (arena.Works ignoreMethods) a := by
  obtain ⟨P, closed, here⟩ := h
  refine (closed a here).transfer (fun c d alike there => ?_) (.refl arena a)
  exact Works.of_alike ⟨P, closed, there⟩ alike

end Arena

/-- The type that the subject is of can be compiled. -/
def Subject.Works (arena : Arena) (ignoreMethods : Bool) : Subject → Prop
  | .ofType _ a | .optional _ a => arena.Works ignoreMethods a
  | .keySet _ => True

end ShapeCheck
