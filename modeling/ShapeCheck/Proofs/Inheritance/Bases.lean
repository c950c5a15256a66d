import ShapeCheck.Proofs.Inheritance.Chains
import ShapeCheck.Proofs.Narrowing.Sameness

set_option autoImplicit false

/-! # Bases in their own place

The members that a definition inherits are read inside of the definition, which binds the parameters of
its bases as well. A base that is read by itself is entered first, and then its parameters are bound by its
own instantiation, with the one of the definition around it. Both ways a parameter stands for the same, as
long as no parameter is bound twice.

Main facts: `Instantiation.lookup_of_base` (what a base binds, the definition binds as well) and
`Arena.alike_within_base`.
-/

namespace ShapeCheck

variable {arena : Arena}

/-! ## Substitutions that agree -/

namespace Arena

section
variable {Q : Substitution → Substitution → Prop}
  (find : ∀ s s', Q s s' → ∀ id,
    Option.Rel (fun x y => x.1 = y.1 ∧ Q x.2 y.2) (s.find? id) (s'.find? id))
include find

/-- Substitutions that agree make the same of a parameter, or both leave it to its default. -/
theorem exists_standsFor_of_agreement {s s' : Substitution} {type : TypeId} {a : Reading} (agree : Q s s')
    (stands : arena.StandsFor (s, type) a) : ∃ visible, arena.StandsFor (s', type) (visible, a.2) ∧
      Q a.1 visible := by
  generalize start : (s, type) = b at stands
  induction stands generalizing s s' type with
  | itself plain =>
    cases start
    exact ⟨s', .itself plain, agree⟩
  | @next s visible type target id goal found bound other rest ih =>
    cases start
    have step : ∃ visible', s'.step arena id = .ok (target, visible') ∧ Q visible visible' := by
      have both := find _ _ agree id
      unfold Substitution.step at bound ⊢
      cases here : s.find? id <;> cases there : s'.find? id <;> rw [here, there] at both <;> cases both
      · rw [here] at bound
        dsimp only at bound ⊢
        cases default : arena.default? id <;> rw [default] at bound <;> cases bound
        exact ⟨s', rfl, agree⟩
      · rename_i x y same
        rw [here] at bound
        cases bound
        exact ⟨y.2, congrArg Except.ok (Prod.ext same.1.symm rfl), same.2⟩
    obtain ⟨visible', bound', agree'⟩ := step
    obtain ⟨end', rest', agree'⟩ := ih agree' rfl
    exact ⟨end', .next found bound' other rest', agree'⟩

/-- A type is the same under substitutions that agree. -/
theorem alike_of_agreement (symm : ∀ s s', Q s s' → Q s' s)
    (under : ∀ s s' frame, Q s s' → Q (frame :: s) (frame :: s')) {s s' : Substitution} (agree : Q s s')
    (type : TypeId) : arena.Alike (s, type) (s', type) := by
  refine ⟨fun a b => a.2 = b.2 ∧ Q a.1 b.1,
    ⟨fun ⟨same, agree⟩ => ⟨same.symm, symm _ _ agree⟩, ?_⟩, rfl, agree⟩
  rintro ⟨s, type⟩ ⟨s', type'⟩ ⟨visible, target⟩ ⟨same, agree⟩ stands
  obtain rfl : type = type' := same
  have agree : Q s s' := agree
  obtain ⟨visible', stands', agree'⟩ := exists_standsFor_of_agreement find agree stands
  refine ⟨_, stands', ?_⟩
  have plain := stands.plain
  dsimp only at plain ⊢
  cases found : arena.lookup? target with
  | none => exact .none
  | some descriptor =>
    rw [found] at plain
    refine .some (Descriptor.Pairs.self (fun _ _ => ⟨rfl, agree'⟩) (fun target arguments _ => ?_)
      fun id isParameter => absurd (congrArg some isParameter) (plain id))
    refine ⟨rfl, fun definition _ => ?_, fun definition _ => ?_⟩
    · exact List.forall₂_same.2 fun argument _ =>
        (Follows.refl argument).mono fun _ _ same => ⟨same, agree'⟩
    · refine (Follows.refl _).mono fun bindings _ same part _ => ⟨rfl, ?_⟩
      subst same
      unfold Substitution.within
      split
      · exact agree'
      · exact under _ _ bindings agree'

end

end Arena

/-- The substitutions are the same, except that one of them has `s` where the other has `s'`. -/
inductive Substitution.Exchanged (s s' : Substitution) : Substitution → Substitution → Prop
  | same (t : Substitution) : Exchanged s s' t t
  | left : Exchanged s s' s s'
  | right : Exchanged s s' s' s
  | under {t t' : Substitution} (frame : Instantiation) : Exchanged s s' t t' →
      Exchanged s s' (frame :: t) (frame :: t')

namespace Substitution.Exchanged

variable {s s' t t' : Substitution}

theorem symm (h : Exchanged s s' t t') : Exchanged s s' t' t := by
  induction h with
  | same t => exact .same t
  | left => exact .right
  | right => exact .left
  | under frame _ ih => exact .under frame ih

/-- If the parameters stand for the same under the two that are exchanged, then also around them. -/
theorem find (ends : ∀ id, Option.Rel (fun x y => x.1 = y.1 ∧ Exchanged s s' x.2 y.2) (s.find? id)
    (s'.find? id)) (h : Exchanged s s' t t') (id : ParameterId) :
    Option.Rel (fun x y => x.1 = y.1 ∧ Exchanged s s' x.2 y.2) (t.find? id) (t'.find? id) := by
  induction h with
  | same t =>
    cases t.find? id with
    | none => exact .none
    | some found => exact .some ⟨rfl, .same _⟩
  | left => exact ends id
  | right =>
    have both := ends id
    cases here : s.find? id <;> cases there : s'.find? id <;> rw [here, there] at both <;> cases both
    · exact .none
    · rename_i same
      exact .some ⟨same.1.symm, same.2.symm⟩
  | under frame inner ih =>
    unfold find?
    cases frame.lookup id with
    | none => exact ih
    | some binding =>
      obtain ⟨type, scope⟩ := binding
      cases scope with
      | outer => exact .some ⟨rfl, inner⟩
      | same => exact .some ⟨rfl, .under frame inner⟩

end Substitution.Exchanged

/-! ## Bindings of a base -/

namespace Instantiation

/-- The second instantiation binds the parameter to what the first one does, in its own scope. -/
def Rebinds (id : ParameterId) (bindings bindings' : Instantiation) : Prop :=
  bindings'.lookup id = (bindings.lookup id).map fun binding => ⟨binding.type, .same⟩

section
variable (arena : Arena) {id : ParameterId} {bindings bindings' : Instantiation}
  (h : Rebinds id bindings bindings') (scope : BindingScope)
include h

theorem Rebinds.bind (parameter : ParameterId) (type : TypeId) :
    Rebinds id (bindings.bind arena parameter ⟨type, scope⟩)
      (bindings'.bind arena parameter ⟨type, .same⟩) := by
  unfold Rebinds
  by_cases here : id = parameter
  · subst here
    cases found : bindings.lookup id with
    | none =>
      have free : bindings'.lookup id = none := by rw [h, found, Option.map_none]
      rw [lookup_bind_self found, lookup_bind_self free]
      dsimp only
      split <;> rfl
    | some binding =>
      -- bound already, so nothing changes on either side
      have bound : (bindings.lookup id).isSome := by rw [found]; rfl
      have bound' : (bindings'.lookup id).isSome := by rw [h, found]; rfl
      unfold Instantiation.bind
      simp only [bound, bound', if_true, ite_self]
      exact h
  · rw [lookup_bind_of_ne here, lookup_bind_of_ne here, h]

theorem Rebinds.bindAll (parameters : List ParameterId) (arguments : List TypeId) :
    Rebinds id (bindings.bindAll arena scope parameters arguments)
      (bindings'.bindAll arena .same parameters arguments) := by
  induction parameters generalizing bindings bindings' arguments with
  | nil => exact h
  | cons parameter rest ih =>
    cases arguments with
    | cons argument arguments => exact ih (h.bind arena scope parameter argument) arguments
    | nil =>
      unfold Instantiation.bindAll
      cases arena.default? parameter with
      | none => exact ih h []
      | some type => exact ih (h.bind arena .same parameter type) []

theorem Rebinds.bindApplications (applications : List Application) :
    Rebinds id (bindings.bindApplications arena applications)
      (bindings'.bindApplications arena applications) := by
  induction applications generalizing bindings bindings' with
  | nil => exact h
  | cons application rest ih =>
    exact ih (h.bindAll arena .same application.definition.parameters application.arguments)

end

end Instantiation

/-! ## Definitions with a merged shape -/

section
variable {steps : Nat} {definition : Definition} {shape : ObjectShape}

/-- With a merged shape, all that is inherited is reached within the steps, and no further steps change
what is found. -/
theorem inheritedWithin_succ_of_merged (merged : mergedShapeWithin arena steps definition = .ok shape) :
    arena.inheritedWithin (steps + 1) definition = arena.inheritedWithin steps definition := by
  induction steps generalizing definition shape with
  | zero => cases merged
  | succ steps ih =>
    rw [Arena.inheritedWithin, Arena.inheritedWithin]
    refine List.flatMap_congr fun base inside => ?_
    obtain ⟨target, arguments, inner, inherited, leads, known, below⟩ :=
      exists_merged_of_mem_bases merged inside
    rw [leads]
    simp only [known, ih below]

theorem mergedShapeWithin_succ_of_merged (merged : mergedShapeWithin arena steps definition = .ok shape) :
    mergedShapeWithin arena (steps + 1) definition = .ok shape := by
  induction steps generalizing definition shape with
  | zero => cases merged
  | succ steps ih =>
    obtain ⟨body, own, given, found, folded⟩ := mergedShapeWithin_eq_ok merged
    have onwards (left : List TypeId) (before : ObjectShape)
        (folded : left.foldlM (arena.inheritBase steps) before = .ok shape) :
        left.foldlM (arena.inheritBase (steps + 1)) before = .ok shape := by
      induction left generalizing before with
      | nil => exact folded
      | cons base rest onwards =>
        rw [List.foldlM_cons] at folded ⊢
        obtain ⟨after, made, folded⟩ := bind_eq_ok.1 folded
        obtain ⟨target, arguments, inner, inherited, leads, known, below, rfl⟩ := inheritBase_eq_ok made
        refine bind_eq_ok.2 ⟨_, ?_, onwards _ folded⟩
        unfold Arena.inheritBase
        rw [leads]
        dsimp only
        rw [Arena.target_eq_ok.2 known]
        dsimp only [bind, Except.bind]
        rw [ih below]
        rfl
    unfold mergedShapeWithin
    rw [Definition.requireBody_eq_ok.2 given]
    dsimp only [bind, Except.bind]
    rw [found]
    exact onwards definition.bases own folded

/-- The bases of a definition with a merged shape can be bound. -/
theorem exists_bindBases_of_merged (merged : mergedShapeWithin arena steps definition = .ok shape)
    (bindings : Instantiation) :
    ∃ made, Instantiation.bindBases arena steps bindings definition = .ok made := by
  induction steps generalizing definition shape bindings with
  | zero => cases merged
  | succ steps ih =>
    have all (base : TypeId) (inside : base ∈ definition.bases) := exists_merged_of_mem_bases merged inside
    rw [Instantiation.bindBases]
    generalize definition.bases = bases at all
    induction bases generalizing bindings with
    | nil => exact ⟨bindings, rfl⟩
    | cons base rest onwards =>
      obtain ⟨target, arguments, inner, inherited, leads, known, below⟩ := all base List.mem_cons_self
      obtain ⟨middle, made⟩ := ih below (bindings.bindAll arena .same inner.parameters arguments)
      obtain ⟨last, others⟩ := onwards middle fun base inside => all base (List.mem_cons_of_mem _ inside)
      refine ⟨last, ?_⟩
      rw [List.foldlM_cons, leads]
      simp only [known, made]
      exact others

end

/-! ## What a base binds -/

section
variable {definition inner : Definition} {base : TypeId} {target : DefinitionId}
  {arguments arguments' : List TypeId} {made made' : Instantiation} {steps : Nat} {shape : ObjectShape}

/-- What a base binds for itself, the definition binds as well, to the same type. -/
theorem Instantiation.lookup_of_base
    (bound : ofArguments arena definition arguments = .ok made)
    (apart : (arena.boundParameters definition).Nodup) (inside : base ∈ definition.bases)
    (leads : arena.lookup? base = some (.reference target arguments'))
    (known : arena.definition? target = some inner) (merged : mergedShapeWithin arena 63 inner = .ok shape)
    (bound' : ofArguments arena inner arguments' = .ok made') {id : ParameterId} {binding : Binding}
    (found : made'.lookup id = some binding) : made.lookup id = some ⟨binding.type, .same⟩ := by
  have others : arena.inherited inner = arena.inheritedWithin 63 inner :=
    inheritedWithin_succ_of_merged merged
  obtain rfl := ofArguments_eq_ok bound
  obtain rfl := ofArguments_eq_ok bound'
  rw [others] at found
  -- the applications in front of those of the base, and behind
  obtain ⟨before, after, split⟩ := List.append_of_mem inside
  obtain ⟨front, back, listed⟩ : ∃ front back, arena.inherited definition =
      front ++ (⟨inner, arguments'⟩ :: arena.inheritedWithin 63 inner) ++ back := by
    unfold Arena.inherited maxResolutionSteps Arena.inheritedWithin
    rw [split, List.flatMap_append, List.flatMap_cons, leads]
    simp only [known]
    exact ⟨_, _, (List.append_assoc _ _ _).symm⟩
  -- the base binds the parameter, so nothing else does
  have binds : id ∈ inner.parameters ∨
      id ∈ (arena.inheritedWithin 63 inner).flatMap (·.definition.parameters) := by
    by_contra absent
    obtain ⟨own, below⟩ := not_or.1 absent
    rw [lookup_bindApplications_of_not_mem below, lookup_bindAll_of_not_mem own] at found
    cases found
  rw [Arena.boundParameters, listed] at apart
  simp only [List.flatMap_append, List.flatMap_cons] at apart
  obtain ⟨-, apart, free⟩ := List.nodup_append.1 apart
  obtain ⟨apart, -, free'⟩ := List.nodup_append.1 apart
  obtain ⟨-, -, free''⟩ := List.nodup_append.1 apart
  have among : id ∈ inner.parameters ++
      (arena.inheritedWithin 63 inner).flatMap (·.definition.parameters) := List.mem_append.2 binds
  have notOwn : id ∉ definition.parameters := fun there =>
    free id there id (List.mem_append_left _ (List.mem_append_right _ among)) rfl
  have notFront : id ∉ front.flatMap (·.definition.parameters) := fun there => free'' id there id among rfl
  have notBack : id ∉ back.flatMap (·.definition.parameters) := fun there =>
    free' id (List.mem_append_right _ among) id there rfl
  rw [listed, bindApplications, List.foldl_append, ← bindApplications,
    lookup_bindApplications_of_not_mem notBack, List.foldl_append, ← bindApplications]
  have start : Rebinds id [] ((bindAll arena .outer [] definition.parameters
      arguments).bindApplications arena front) := by
    unfold Rebinds
    rw [lookup_bindApplications_of_not_mem notFront, lookup_bindAll_of_not_mem notOwn]
    rfl
  have passed := (start.bindAll arena .outer inner.parameters arguments').bindApplications arena
    (arena.inheritedWithin 63 inner)
  exact passed.trans (by rw [found]; rfl)

/-- A type is the same inside of a definition, and inside of one of its bases there. -/
theorem Arena.alike_within_base {s : Substitution} (bound : Instantiation.ofArguments arena definition
      arguments = .ok made)
    (apart : (arena.boundParameters definition).Nodup) (inside : base ∈ definition.bases)
    (leads : arena.lookup? base = some (.reference target arguments'))
    (known : arena.definition? target = some inner) (merged : mergedShapeWithin arena 63 inner = .ok shape)
    (bound' : Instantiation.ofArguments arena inner arguments' = .ok made') (type : TypeId) :
    arena.Alike (s.within made, type) ((s.within made).within made', type) := by
  refine alike_of_agreement (Q := Substitution.Exchanged (s.within made) ((s.within made).within made'))
    (fun _ _ exchanged => exchanged.find fun id => ?_) (fun _ _ exchanged => exchanged.symm)
    (fun _ _ frame exchanged => .under frame exchanged) .left type
  have shared (binding : Binding) (found : made'.lookup id = some binding) :=
    Instantiation.lookup_of_base bound apart inside leads known merged bound' found
  cases made' with
  | nil =>
    show Option.Rel _ ((s.within made).find? id) ((s.within made).find? id)
    cases (s.within made).find? id with
    | none => exact .none
    | some found => exact .some ⟨rfl, .same _⟩
  | cons first rest =>
    show Option.Rel _ ((s.within made).find? id) (Substitution.find? ((first :: rest) :: s.within made) id)
    cases found : (first :: rest).lookup id with
    | none =>
      rw [Substitution.find?, found]
      cases (s.within made).find? id with
      | none => exact .none
      | some found => exact .some ⟨rfl, .same _⟩
    | some binding =>
      obtain ⟨type, scope⟩ := binding
      have outer := shared _ found
      have some : s.within made = made :: s := by
        unfold Substitution.within
        cases made with
        | nil => cases outer
        | cons => rfl
      have here : (s.within made).find? id = Option.some (type, s.within made) := by
        rw [some, Substitution.find?_same outer]
      rw [here]
      cases scope with
      | outer =>
        rw [Substitution.find?_outer found]
        exact .some ⟨rfl, .same _⟩
      | same =>
        rw [Substitution.find?_same found]
        exact .some ⟨rfl, .left⟩

end

end ShapeCheck
