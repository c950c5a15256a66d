import ShapeCheck.Proofs.Inheritance.Access
import ShapeCheck.Proofs.Instantiation.Frames
import ShapeCheck.Proofs.Simulation.Descriptors

set_option autoImplicit false

/-! # Types that are the same

A type is read with a substitution for its parameters, and the same type may come about in many ways: as
an argument, as what a parameter stands for, at the end of a long chain of references. Two readings are
alike (`Arena.Alike`) if they unfold alike: once their parameters are replaced by what these stand for,
their descriptors say the same of parts that are alike, and references lead to the same definition, whose
contents are alike as well. How many instantiations lie around a type makes no difference, even though a
compilation gives up on types that lie too deep.

Main facts: `Arena.Alike.refl`, `Arena.Alike.symm`, `Arena.Alike.trans`, `Arena.StandsFor.alike` (a
parameter is alike to what it stands for) and `Arena.Alike.induction` (how two runs over types that are
alike are compared).
-/

namespace ShapeCheck

/-- A type, and what its parameters stand for. -/
abbrev Reading := Substitution × TypeId

/-! ## Parameters -/

namespace Arena

variable {arena : Arena}

/-- A parameter stands for the type that its bindings lead to, however many there are, and any other type
stands for itself. -/
inductive StandsFor (arena : Arena) : Reading → Reading → Prop
  | itself {s : Substitution} {type : TypeId}
      (plain : ∀ id, arena.lookup? type ≠ some (.parameter id)) : StandsFor arena (s, type) (s, type)
  | next {s visible : Substitution} {type target : TypeId} {id : ParameterId}
      {goal : Reading} (found : arena.lookup? type = some (.parameter id))
      (bound : s.step arena id = .ok (target, visible))
      (other : arena.lookup? target ≠ some (.parameter id))
      (rest : StandsFor arena (visible, target) goal) : StandsFor arena (s, type) goal

theorem StandsFor.plain {a b : Reading} (h : arena.StandsFor a b) (id : ParameterId) :
    arena.lookup? b.2 ≠ some (.parameter id) := by
  induction h with
  | itself plain => exact plain id
  | next _ _ _ _ ih => exact ih

theorem StandsFor.unique {a b c : Reading} (h : arena.StandsFor a b)
    (h' : arena.StandsFor a c) : b = c := by
  induction h with
  | itself plain =>
    cases h' with
    | itself => rfl
    | next found => exact absurd found (plain _)
  | next found bound _ _ ih =>
    cases h' with
    | itself plain => exact absurd found (plain _)
    | next found' bound' _ rest =>
      cases Option.some.inj (found.symm.trans found')
      cases bound.symm.trans bound'
      exact ih rest

theorem standsFor_of_resolveWithin {steps : Nat} {s visible : Substitution} {type target : TypeId}
    {id : ParameterId} (found : arena.lookup? type = some (.parameter id))
    (resolved : s.resolveWithin arena steps id = .ok (target, visible)) :
    arena.StandsFor (s, type) (visible, target) := by
  induction steps generalizing s type id with
  | zero => cases resolved
  | succ steps ih =>
    obtain ⟨⟨next, between⟩, bound, resolved⟩ := bind_eq_ok.1 resolved
    dsimp only at resolved
    split at resolved
    · rename_i again known
      split at resolved
      · cases resolved
      · rename_i different
        refine .next found bound (fun same => ?_) (ih known resolved)
        exact different (Descriptor.parameter.inj (Option.some.inj (known.symm.trans same)))
    · rename_i plain
      cases resolved
      exact .next found bound (plain id) (.itself plain)

/-- A parameter that stands for something is resolved, unless that takes too many steps. -/
theorem StandsFor.resolveWithin {a b : Reading} (h : arena.StandsFor a b) {id : ParameterId}
    (found : arena.lookup? a.2 = some (.parameter id)) (steps : Nat) :
    a.1.resolveWithin arena steps id = .ok (b.2, b.1) ∨
      ∃ e, a.1.resolveWithin arena steps id = .error e ∧ e.IsTooDeep := by
  induction h generalizing id steps with
  | itself plain => exact absurd found (plain id)
  | @next s visible type target id' goal found' bound other rest ih =>
    cases Option.some.inj (found'.symm.trans found)
    cases steps with
    | zero => exact .inr ⟨_, rfl, _, _, rfl⟩
    | succ steps =>
      unfold Substitution.resolveWithin
      rw [bound]
      dsimp only [bind, Except.bind]
      split
      · rename_i next known
        have different : next ≠ id' := by
          rintro rfl
          exact other known
        rw [if_neg different]
        exact ih known steps
      · rename_i plain
        have same : (visible, target) = goal := StandsFor.unique (.itself plain) rest
        exact .inl (by rw [← same]; rfl)

end Arena

/-! ## References -/

/-- The substitution inside of an instantiation. One that binds nothing changes nothing. -/
def Substitution.within (s : Substitution) (bindings : Instantiation) : Substitution :=
  if bindings.isEmpty then s else bindings :: s

theorem Substitution.enter_eq_within {arena : Arena} {s inside : Substitution} {definition : Definition}
    {arguments : List TypeId} (entered : s.enter arena definition arguments = .ok inside) :
    ∃ bindings, Instantiation.ofArguments arena definition arguments = .ok bindings ∧
      inside = s.within bindings :=
  enter_eq_ok entered

/-- What is inside of a definition: its body, its bases, and the types of all its members. -/
def Arena.IsInside (arena : Arena) (definition : Definition) (part : TypeId) : Prop :=
  definition.body = some part ∨ part ∈ definition.bases ∨
    ∃ shape, arena.mergedShape definition = .ok shape ∧ part ∈ (Descriptor.object shape).children

namespace Arena

section
variable (arena : Arena) (R : Reading → Reading → Prop) (s s' : Substitution)

/-- The references lead to the same definition, with related arguments and related contents. -/
structure SameReference (target : DefinitionId) (arguments : List TypeId) (target' : DefinitionId)
    (arguments' : List TypeId) : Prop where
  leads : target = target'
  given : ∀ definition, arena.definition? target = some definition →
    List.Forall₂ (Follows Never fun part part' => R (s, part) (s', part'))
      (arena.allArguments definition.parameters arguments)
      (arena.allArguments definition.parameters arguments')
  contents : ∀ definition, arena.definition? target = some definition →
    Follows Never (fun bindings bindings' => ∀ part, arena.IsInside definition part →
        R (s.within bindings, part) (s'.within bindings', part))
      (Instantiation.ofArguments arena definition arguments)
      (Instantiation.ofArguments arena definition arguments')

/-- The descriptors, which are not parameters, say the same of related parts. -/
abbrev SameForm : Descriptor → Descriptor → Prop :=
  Descriptor.Pairs (fun part part' => R (s, part) (s', part')) (arena.SameReference R s s')
    fun _ _ => False

/-- Related readings unfold to related ones. -/
structure IsSameness : Prop where
  symm : ∀ {a b}, R a b → R b a
  unfold : ∀ {a b a'}, R a b → arena.StandsFor a a' → ∃ b', arena.StandsFor b b' ∧
    Option.Rel (arena.SameForm R a'.1 b'.1) (arena.lookup? a'.2) (arena.lookup? b'.2)

end

/-- The two readings are of the same type. -/
def Alike (arena : Arena) (a b : Reading) : Prop := ∃ R, arena.IsSameness R ∧ R a b

end Arena

/-! ## Descriptors in a row -/

section
variable {R R' R'' : TypeId → TypeId → Prop} (compose : ∀ a b c, R a b → R' b c → R'' a c)

theorem List.forall₂_trans {α : Type} {P P' P'' : α → α → Prop} (compose : ∀ a b c, P a b → P' b c → P'' a c)
    {as bs cs : List α} (h : List.Forall₂ P as bs) (h' : List.Forall₂ P' bs cs) : List.Forall₂ P'' as cs := by
  induction h generalizing cs with
  | nil =>
    cases h'
    exact .nil
  | cons here _ ih =>
    cases h' with
    | cons there rest => exact .cons (compose _ _ _ here there) (ih rest)

theorem Option.rel_trans {α : Type} {P P' P'' : α → α → Prop} (compose : ∀ a b c, P a b → P' b c → P'' a c)
    {x y z : Option α} (h : Option.Rel P x y) (h' : Option.Rel P' y z) : Option.Rel P'' x z := by
  cases h with
  | none =>
    cases h'
    exact .none
  | some here =>
    cases h' with
    | some there => exact .some (compose _ _ _ here there)

theorem Follows.trans {α : Type} {P P' P'' : α → α → Prop} (compose : ∀ a b c, P a b → P' b c → P'' a c)
    {x y z : Except CompileError α} (h : Follows Never P x y) (h' : Follows Never P' y z) :
    Follows Never P'' x z := by
  cases x <;> cases y <;> cases z <;> first | trivial | exact h.elim | exact h'.elim | exact compose _ _ _ h h'

include compose

theorem ObjectShape.Pairs.trans {shape shape' shape'' : ObjectShape} (h : shape.Pairs R shape')
    (h' : shape'.Pairs R' shape'') : shape.Pairs R'' shape'' where
  properties := List.forall₂_trans (fun _ _ _ here there =>
    ⟨here.name.trans there.name, Option.rel_trans compose here.type there.type,
      here.optional.trans there.optional, here.method.trans there.method,
      here.symbolKeyed.trans there.symbolKeyed⟩) h.properties h'.properties
  index := Option.rel_trans compose h.index h'.index

theorem Descriptor.Pairs.trans
    {P P' P'' : DefinitionId → List TypeId → DefinitionId → List TypeId → Prop}
    (refers : ∀ t as t' as' t'' as'', P t as t' as' → P' t' as' t'' as'' → P'' t as t'' as'')
    {d d' d'' : Descriptor} (h : d.Pairs R P (fun _ _ => False) d')
    (h' : d'.Pairs R' P' (fun _ _ => False) d'') : d.Pairs R'' P'' (fun _ _ => False) d'' := by
  cases h with
  | plain isPlain =>
    cases h' with
    | plain isPlain' => exact .plain isPlain
    | _ => exact isPlain.elim
  | array here =>
    cases h' with
    | plain isPlain => exact isPlain.elim
    | array there => exact .array (compose _ _ _ here there)
  | tuple here =>
    cases h' with
    | plain isPlain => exact isPlain.elim
    | tuple there =>
      exact .tuple (List.forall₂_trans (fun _ _ _ a b =>
        ⟨compose _ _ _ a.type b.type, a.optional.trans b.optional⟩) here there)
  | object here =>
    cases h' with
    | plain isPlain => exact isPlain.elim
    | object there => exact .object (here.trans compose there)
  | union here =>
    cases h' with
    | plain isPlain => exact isPlain.elim
    | union there => exact .union (List.forall₂_trans compose here there)
  | intersection here =>
    cases h' with
    | plain isPlain => exact isPlain.elim
    | intersection there => exact .intersection (List.forall₂_trans compose here there)
  | reference here =>
    cases h' with
    | plain isPlain => exact isPlain.elim
    | reference there => exact .reference (refers _ _ _ _ _ _ here there)
  | parameter impossible => exact impossible.elim
  | indexAccess whole key =>
    cases h' with
    | plain isPlain => exact isPlain.elim
    | indexAccess whole' key' => exact .indexAccess (compose _ _ _ whole whole') (compose _ _ _ key key')
  | keyof here =>
    cases h' with
    | plain isPlain => exact isPlain.elim
    | keyof there => exact .keyof (compose _ _ _ here there)

end

namespace Arena

variable {arena : Arena} {R R' : Reading → Reading → Prop}
  {s s' : Substitution}

theorem SameForm.self (refl : ∀ a, R a a) {descriptor : Descriptor}
    (plain : ∀ id, descriptor ≠ .parameter id) : arena.SameForm R s s descriptor descriptor := by
  refine Descriptor.Pairs.self (fun _ _ => refl _) (fun target arguments _ => ⟨rfl, fun definition _ => ?_, ?_⟩)
    fun id isParameter => absurd isParameter (plain id)
  · exact List.forall₂_same.2 fun argument _ =>
      (Follows.refl argument).mono fun _ _ same => same ▸ refl _
  · exact fun definition _ => (Follows.refl _).mono fun _ _ same part _ => same ▸ refl _

theorem SameForm.trans {R'' : Reading → Reading → Prop} {s'' : Substitution}
    (compose : ∀ a b c, R a b → R' b c → R'' a c) {d d' d'' : Descriptor}
    (h : arena.SameForm R s s' d d') (h' : arena.SameForm R' s' s'' d' d'') :
    arena.SameForm R'' s s'' d d'' := by
  have parts (part part' part'' : TypeId) : R (s, part) (s', part') → R' (s', part') (s'', part'') →
      R'' (s, part) (s'', part'') := compose _ _ _
  refine Descriptor.Pairs.trans parts ?_ h h'
  intro t as t' as' t'' as'' here there
  obtain rfl := here.leads
  obtain rfl := there.leads
  refine ⟨rfl, fun definition leads => ?_, fun definition leads => ?_⟩
  · refine List.forall₂_trans (fun x y z first second => ?_) (here.given definition leads)
      (there.given definition leads)
    exact Follows.trans parts first second
  · exact Follows.trans (fun _ _ _ first second part inside =>
      compose _ _ _ (first part inside) (second part inside)) (here.contents definition leads)
      (there.contents definition leads)

theorem SameForm.mono (weaker : ∀ a b, R a b → R' a b) {d d' : Descriptor}
    (plain : ∀ id, d ≠ .parameter id) (h : arena.SameForm R s s' d d') : arena.SameForm R' s s' d d' :=
  SameForm.trans (R := Eq) (fun _ _ _ same related => same ▸ weaker _ _ related)
    (SameForm.self (fun _ => rfl) plain) h

/-! ## Alike -/

namespace Alike

variable {a b c : Reading}

theorem symm (h : arena.Alike a b) : arena.Alike b a :=
  let ⟨R, same, related⟩ := h
  ⟨R, same, same.symm related⟩

end Alike

theorem isSameness_alike (arena : Arena) : arena.IsSameness arena.Alike where
  symm := Alike.symm
  unfold := by
    rintro a b a' ⟨R, same, related⟩ stands
    obtain ⟨b', stands', forms⟩ := same.unfold related stands
    refine ⟨b', stands', ?_⟩
    have plain := stands.plain
    cases here : arena.lookup? a'.2 <;> cases there : arena.lookup? b'.2 <;>
      rw [here, there] at forms <;> rw [here] at plain <;> cases forms
    · exact .none
    · rename_i form
      exact .some (SameForm.mono (fun _ _ related => ⟨R, same, related⟩)
        (fun id same => plain id (congrArg some same)) form)

/-- Readings that stand for the same are alike. -/
theorem alike_of_standsFor {a b : Reading}
    (h : a = b ∨ ∃ c, arena.StandsFor a c ∧ arena.StandsFor b c) : arena.Alike a b := by
  refine ⟨fun a b => a = b ∨ ∃ c, arena.StandsFor a c ∧ arena.StandsFor b c, ⟨?_, ?_⟩, h⟩
  · rintro a b (rfl | ⟨c, here, there⟩)
    · exact .inl rfl
    · exact .inr ⟨c, there, here⟩
  · intro a b a' related stands
    have other : arena.StandsFor b a' := by
      rcases related with rfl | ⟨c, here, there⟩
      · exact stands
      · obtain rfl := stands.unique here
        exact there
    refine ⟨a', other, ?_⟩
    have plain := stands.plain
    cases found : arena.lookup? a'.2 with
    | none => exact .none
    | some descriptor =>
      rw [found] at plain
      exact .some (SameForm.self (fun _ => .inl rfl) fun id same => plain id (congrArg some same))

theorem StandsFor.alike {a b : Reading} (h : arena.StandsFor a b) : arena.Alike a b :=
  alike_of_standsFor (.inr ⟨b, h, .itself h.plain⟩)

namespace Alike

variable {a b c : Reading}

theorem refl (arena : Arena) (a : Reading) : arena.Alike a a := alike_of_standsFor (.inl rfl)

theorem trans (h : arena.Alike a b) (h' : arena.Alike b c) : arena.Alike a c := by
  refine ⟨fun a c => ∃ b, arena.Alike a b ∧ arena.Alike b c, ⟨?_, ?_⟩, b, h, h'⟩
  · rintro a c ⟨b, here, there⟩
    exact ⟨b, there.symm, here.symm⟩
  · rintro a c a' ⟨b, here, there⟩ stands
    obtain ⟨b', stands', forms⟩ := (isSameness_alike arena).unfold here stands
    obtain ⟨c', stands'', forms'⟩ := (isSameness_alike arena).unfold there stands'
    refine ⟨c', stands'', Option.rel_trans (fun _ _ _ here there => ?_) forms forms'⟩
    exact SameForm.trans (fun _ b _ here there => ⟨b, here, there⟩) here there

/-- Types that are not parameters and are alike say the same. -/
theorem forms (h : arena.Alike a b) (plain : ∀ id, arena.lookup? a.2 ≠ some (.parameter id))
    (plain' : ∀ id, arena.lookup? b.2 ≠ some (.parameter id)) :
    Option.Rel (arena.SameForm arena.Alike a.1 b.1) (arena.lookup? a.2) (arena.lookup? b.2) := by
  obtain ⟨b', stands, forms⟩ := (isSameness_alike arena).unfold h (.itself plain)
  rwa [← StandsFor.unique (.itself plain') stands] at forms

/-- What is alike to something that is not a parameter stands for something. -/
theorem exists_standsFor (h : arena.Alike a b) (plain : ∀ id, arena.lookup? b.2 ≠ some (.parameter id)) :
    ∃ a', arena.StandsFor a a' ∧ arena.Alike a' b :=
  let ⟨a', stands, _⟩ := (isSameness_alike arena).unfold h.symm (.itself plain)
  ⟨a', stands, stands.alike.symm.trans h⟩

/-- Two runs over types that are alike, each within a number of steps of its own, are compared by the
forms of the types: parameters are passed first. -/
theorem induction {P : Nat → Substitution × TypeId → Nat → Substitution × TypeId → Prop}
    (zero_right : ∀ m a b, P m a 0 b) (zero_left : ∀ a n b, P 0 a (n + 1) b)
    (parameter_right : ∀ m a n s type id, arena.lookup? type = some (.parameter id) →
      (∀ target visible, s.resolve arena id = .ok (target, visible) → P m a n (visible, target)) →
        P m a (n + 1) (s, type))
    (parameter_left : ∀ m s type id n b, arena.lookup? type = some (.parameter id) →
      (∀ e, s.resolve arena id = .error e → e.IsTooDeep) →
        (∀ target visible, s.resolve arena id = .ok (target, visible) → P m (visible, target) (n + 1) b) →
          P (m + 1) (s, type) (n + 1) b)
    (form : ∀ m s type n s' type',
      Option.Rel (arena.SameForm arena.Alike s s') (arena.lookup? type) (arena.lookup? type') →
        (∀ part part', arena.Alike part part' → P m part n part') →
          P (m + 1) (s, type) (n + 1) (s', type'))
    (m n : Nat) (h : arena.Alike a b) : P m a n b := by
  induction n generalizing m a b with
  | zero => exact zero_right m a b
  | succ n outer =>
    obtain ⟨s', type'⟩ := b
    by_cases isParameter : ∃ id, arena.lookup? type' = some (.parameter id)
    · obtain ⟨id, found⟩ := isParameter
      refine parameter_right m a n s' type' id found fun target visible resolved => ?_
      exact outer m (h.trans (standsFor_of_resolveWithin found resolved).alike)
    · have plain' : ∀ id, arena.lookup? type' ≠ some (.parameter id) := fun id found =>
        isParameter ⟨id, found⟩
      induction m generalizing a with
      | zero => exact zero_left a n _
      | succ m inner =>
        obtain ⟨s, type⟩ := a
        by_cases isParameter : ∃ id, arena.lookup? type = some (.parameter id)
        · obtain ⟨id, found⟩ := isParameter
          refine parameter_left m s type id n _ found (fun e failed => ?_) fun target visible resolved => ?_
          · obtain ⟨a', stands, -⟩ := h.exists_standsFor plain'
            rcases stands.resolveWithin found maxResolutionSteps with resolved | ⟨e', failed', deep⟩
            · cases resolved.symm.trans failed
            · cases failed'.symm.trans failed
              exact deep
          · exact inner ((standsFor_of_resolveWithin found resolved).alike.symm.trans h)
        · have plain : ∀ id, arena.lookup? type ≠ some (.parameter id) := fun id found =>
            isParameter ⟨id, found⟩
          exact form m s type n s' type' (h.forms plain plain') fun part part' alike => outer m alike

end Alike

end Arena

end ShapeCheck
