import ShapeCheck.Proofs.Renaming.Types
import ShapeCheck.Proofs.Simulation.Strategies

set_option autoImplicit false

/-! # Renamed arenas are compiled alike

If definitions that correspond have matching bodies and bases, parameters that correspond have matching
defaults, and both sides call a definition by the same name, then matching types are compiled in the same
way: no handle shows in what comes out.

Main fact: `Renaming.Relates.compile`.
-/

namespace ShapeCheck

namespace Renaming

/-! ## Related arenas -/

/-- The definitions are the same, up to the renaming. -/
structure DefinitionsMatch (ρ : Renaming) (a a' : Arena) (definition definition' : Definition) : Prop where
  parameters : List.Forall₂ ρ.parameters definition.parameters definition'.parameters
  body : Option.Rel (ρ.Matches a a') definition.body definition'.body
  bases : List.Forall₂ (ρ.Matches a a') definition.bases definition'.bases

/-- What corresponds in the two arenas is the same, up to the renaming. -/
structure Relates (ρ : Renaming) (a a' : Arena) : Prop where
  oneToOne : ρ.IsOneToOne
  builtin : ∀ type : TypeId, type.isBuiltin = true → ρ.Matches a a' type type
  definitions : ∀ id id', ρ.definitions id id' → ∃ definition definition',
    a.definition? id = some definition ∧ a'.definition? id' = some definition' ∧
      ρ.DefinitionsMatch a a' definition definition'
  names : ∀ id id', ρ.definitions id id' → a.definitionName id = a'.definitionName id'
  defaults : ∀ id id', ρ.parameters id id' → Option.Rel (ρ.Matches a a') (a.default? id) (a'.default? id')

variable {ρ : Renaming} {a a' : Arena}

/-- Matching types stand for corresponding parameters, or for none. -/
theorem Matches.isParameter_iff (oneToOne : ρ.IsOneToOne) {type type' : TypeId} {id id' : ParameterId}
    (h : ρ.Matches a a' type type') (same : ρ.parameters id id') :
    a.lookup? type = some (.parameter id) ↔ a'.lookup? type' = some (.parameter id') := by
  obtain ⟨descriptor, descriptor', found, found', pair⟩ := h.lookup
  rw [found, found', Option.some.injEq, Option.some.injEq]
  constructor
  · rintro rfl
    cases pair with
    | plain isPlain => exact isPlain.elim
    | parameter stands => rw [oneToOne.parameters.2 stands same]
  · rintro rfl
    cases pair with
    | plain isPlain => exact isPlain.elim
    | parameter stands => rw [oneToOne.parameters.1 stands same]

/-! ## Substitutions -/

/-- The bindings are the same, up to the renaming. -/
structure BindingsMatch (ρ : Renaming) (a a' : Arena) (entry entry' : ParameterId × Binding) : Prop where
  parameter : ρ.parameters entry.1 entry'.1
  type : ρ.Matches a a' entry.2.type entry'.2.type
  scope : entry.2.scope = entry'.2.scope

/-- The instantiations bind the same, in the same order. -/
abbrev InstantiationsMatch (ρ : Renaming) (a a' : Arena) : Instantiation → Instantiation → Prop :=
  List.Forall₂ (ρ.BindingsMatch a a')

/-- The substitutions are made of instantiations that bind the same. -/
abbrev SubstitutionsMatch (ρ : Renaming) (a a' : Arena) : Substitution → Substitution → Prop :=
  List.Forall₂ (ρ.InstantiationsMatch a a')

/-- The types match, and so do the substitutions to read them with. -/
def ReadingsMatch (ρ : Renaming) (a a' : Arena) (found found' : TypeId × Substitution) : Prop :=
  ρ.Matches a a' found.1 found'.1 ∧ ρ.SubstitutionsMatch a a' found.2 found'.2

theorem InstantiationsMatch.lookup (oneToOne : ρ.IsOneToOne) {bindings bindings' : Instantiation}
    (h : ρ.InstantiationsMatch a a' bindings bindings') {id id' : ParameterId}
    (same : ρ.parameters id id') :
    Option.Rel (fun binding binding' =>
        ρ.Matches a a' binding.type binding'.type ∧ binding.scope = binding'.scope)
      (bindings.lookup id) (bindings'.lookup id') := by
  induction h with
  | nil => exact .none
  | @cons entry entry' _ _ here _ ih =>
    rw [List.lookup_cons, List.lookup_cons]
    have keys : (id == entry.1) = (id' == entry'.1) := by
      rw [Bool.eq_iff_iff, beq_iff_eq, beq_iff_eq]
      constructor
      · rintro rfl
        exact oneToOne.parameters.2 same here.parameter
      · rintro rfl
        exact oneToOne.parameters.1 same here.parameter
    rw [keys]
    split
    · exact .some ⟨here.type, here.scope⟩
    · exact ih

theorem SubstitutionsMatch.find? (oneToOne : ρ.IsOneToOne) {s s' : Substitution}
    (h : ρ.SubstitutionsMatch a a' s s') {id id' : ParameterId} (same : ρ.parameters id id') :
    Option.Rel (ρ.ReadingsMatch a a') (s.find? id) (s'.find? id') := by
  induction h with
  | nil => exact .none
  | @cons inner inner' outer outer' here rest ih =>
    have found := here.lookup oneToOne same
    unfold Substitution.find?
    cases first : inner.lookup id <;> cases second : inner'.lookup id' <;> rw [first, second] at found <;>
      cases found
    · exact ih
    · rename_i binding binding' related
      obtain ⟨type, scope⟩ := binding
      obtain ⟨type', scope'⟩ := binding'
      obtain ⟨types, rfl⟩ := related
      cases scope with
      | outer => exact .some ⟨types, rest⟩
      | same => exact .some ⟨types, .cons here rest⟩

variable (relates : ρ.Relates a a')
include relates

theorem Relates.step {s s' : Substitution} (h : ρ.SubstitutionsMatch a a' s s') {id id' : ParameterId}
    (same : ρ.parameters id id') : Follows Never (ρ.ReadingsMatch a a') (s.step a id) (s'.step a' id') := by
  have found := h.find? relates.oneToOne same
  have defaults := relates.defaults id id' same
  unfold Substitution.step
  cases first : s.find? id <;> cases second : s'.find? id' <;> rw [first, second] at found <;> cases found
  · cases left : a.default? id <;> cases right : a'.default? id' <;> rw [left, right] at defaults <;>
      cases defaults
    · exact Follows.error _ _
    · rename_i related
      exact Follows.ok ⟨related, h⟩
  · rename_i related
    exact related

/-- Parameters that correspond stand for the same. -/
theorem Relates.resolveWithin (steps : Nat) {s s' : Substitution} (h : ρ.SubstitutionsMatch a a' s s')
    {id id' : ParameterId} (same : ρ.parameters id id') :
    Follows Never (ρ.ReadingsMatch a a') (Substitution.resolveWithin a steps s id)
      (Substitution.resolveWithin a' steps s' id') := by
  induction steps generalizing s s' id id' with
  | zero => exact Follows.error _ _
  | succ steps ih =>
    unfold Substitution.resolveWithin
    refine (relates.step h same).bind ?_
    rintro ⟨type, visible⟩ ⟨type', visible'⟩ ⟨types, visibles⟩
    obtain ⟨descriptor, descriptor', found, found', pair⟩ := types.lookup
    have here : ρ.ReadingsMatch a a' (type, visible) (type', visible') := ⟨types, visibles⟩
    simp only [found, found']
    cases pair with
    | @parameter next next' stands =>
      have again : next = id ↔ next' = id' := by
        constructor
        · rintro rfl
          exact relates.oneToOne.parameters.2 stands same
        · rintro rfl
          exact relates.oneToOne.parameters.1 stands same
      by_cases self : next = id
      · simp only [if_pos self, if_pos (again.1 self)]
        exact Follows.error _ _
      · simp only [if_neg self, if_neg fun equal => self (again.2 equal)]
        exact ih visibles stands
    | plain isPlain => cases descriptor <;> first | exact isPlain.elim | exact Follows.ok here
    | _ => exact Follows.ok here

/-! ## Instantiations -/

theorem Relates.bind {bindings bindings' : Instantiation} (h : ρ.InstantiationsMatch a a' bindings bindings')
    {parameter parameter' : ParameterId} (same : ρ.parameters parameter parameter') {type type' : TypeId}
    (types : ρ.Matches a a' type type') (scope : BindingScope) :
    ρ.InstantiationsMatch a a' (bindings.bind a parameter ⟨type, scope⟩)
      (bindings'.bind a' parameter' ⟨type', scope⟩) := by
  have self := types.isParameter_iff relates.oneToOne same
  have known := h.lookup relates.oneToOne same
  unfold Instantiation.bind
  by_cases open_ : a.lookup? type = some (.parameter parameter)
  · rw [if_pos open_, if_pos (self.1 open_)]
    exact h
  · rw [if_neg open_, if_neg fun there => open_ (self.2 there)]
    cases first : bindings.lookup parameter <;> cases second : bindings'.lookup parameter' <;>
      rw [first, second] at known <;> cases known
    · exact List.rel_append h (.cons ⟨same, types, rfl⟩ .nil)
    · exact h

theorem Relates.bindAll {bindings bindings' : Instantiation}
    (h : ρ.InstantiationsMatch a a' bindings bindings') {parameters parameters' : List ParameterId}
    (same : List.Forall₂ ρ.parameters parameters parameters') {arguments arguments' : List TypeId}
    (types : List.Forall₂ (ρ.Matches a a') arguments arguments') (scope : BindingScope) :
    ρ.InstantiationsMatch a a' (bindings.bindAll a scope parameters arguments)
      (bindings'.bindAll a' scope parameters' arguments') := by
  induction same generalizing bindings bindings' arguments arguments' with
  | nil => exact h
  | @cons parameter parameter' _ _ here _ ih =>
    unfold Instantiation.bindAll
    cases types with
    | cons type rest => exact ih (relates.bind h here type scope) rest
    | nil =>
      have defaults := relates.defaults parameter parameter' here
      cases left : a.default? parameter <;> cases right : a'.default? parameter' <;>
        rw [left, right] at defaults <;> cases defaults <;> simp only [left, right]
      · exact ih h .nil
      · rename_i related
        exact ih (relates.bind h here related .same) .nil

theorem Relates.bindBases (steps : Nat) {bindings bindings' : Instantiation}
    (h : ρ.InstantiationsMatch a a' bindings bindings') {definition definition' : Definition}
    (same : ρ.DefinitionsMatch a a' definition definition') :
    Follows Never (ρ.InstantiationsMatch a a') (Instantiation.bindBases a steps bindings definition)
      (Instantiation.bindBases a' steps bindings' definition') := by
  induction steps generalizing bindings bindings' definition definition' with
  | zero => exact Follows.error _ _
  | succ steps ih =>
    unfold Instantiation.bindBases
    refine Follows.foldlM same.bases (fun known known' base base' match_ based => ?_) h
    obtain ⟨descriptor, descriptor', found, found', pair⟩ := based.lookup
    simp only [found, found']
    cases pair with
    | @reference target target' arguments arguments' related =>
      obtain ⟨inherited, inherited', there, there', inner⟩ := relates.definitions _ _ related.1
      simp only [there, there']
      exact ih (relates.bindAll match_ inner.parameters related.2 .same) inner
    | plain isPlain => cases descriptor <;> first | exact isPlain.elim | exact Follows.ok match_
    | _ => exact Follows.ok match_

/-- Inside of references that correspond, parameters that correspond stand for the same. -/
theorem Relates.enter {s s' : Substitution} (h : ρ.SubstitutionsMatch a a' s s')
    {definition definition' : Definition} (same : ρ.DefinitionsMatch a a' definition definition')
    {arguments arguments' : List TypeId} (types : List.Forall₂ (ρ.Matches a a') arguments arguments') :
    Follows Never (ρ.SubstitutionsMatch a a') (s.enter a definition arguments)
      (s'.enter a' definition' arguments') := by
  unfold Substitution.enter Instantiation.ofArguments
  refine (relates.bindBases _ (relates.bindAll .nil same.parameters types .outer) same).bind ?_
  intro bindings bindings' related
  have empty : bindings.isEmpty = bindings'.isEmpty := by
    rw [Bool.eq_iff_iff, List.isEmpty_iff_length_eq_zero, List.isEmpty_iff_length_eq_zero, related.length_eq]
  rw [empty, h.length_eq]
  split
  · exact Follows.ok h
  · split
    · exact Follows.error _ _
    · exact Follows.ok (.cons related h)

/-! ## References -/

theorem Relates.allArguments {parameters parameters' : List ParameterId}
    (same : List.Forall₂ ρ.parameters parameters parameters') {arguments arguments' : List TypeId}
    (types : List.Forall₂ (ρ.Matches a a') arguments arguments') :
    List.Forall₂ (Follows Never (ρ.Matches a a')) (a.allArguments parameters arguments)
      (a'.allArguments parameters' arguments') := by
  induction same generalizing arguments arguments' with
  | nil => exact .nil
  | @cons parameter parameter' _ _ here _ ih =>
    unfold Arena.allArguments
    cases types with
    | cons type rest => exact .cons type (ih rest)
    | nil =>
      refine .cons ?_ (ih .nil)
      have defaults := relates.defaults parameter parameter' here
      cases left : a.default? parameter <;> cases right : a'.default? parameter' <;>
        rw [left, right] at defaults <;> cases defaults
      · exact Follows.error _ _
      · rename_i related
        exact related

omit relates in
/-- Of matching shapes the same members are inherited. -/
theorem inherit {R : TypeId → TypeId → Prop} {shape shape' inherited inherited' : ObjectShape}
    (h : shape.Pairs R shape') (from_ : inherited.Pairs R inherited') :
    (shape.inherit inherited).Pairs R (shape'.inherit inherited') where
  properties := by
    unfold ObjectShape.inherit
    have members := h.properties
    generalize shape.properties = known at members ⊢
    generalize shape'.properties = known' at members ⊢
    have more := from_.properties
    generalize inherited.properties = new at more ⊢
    generalize inherited'.properties = new' at more ⊢
    induction more generalizing known known' with
    | nil => exact members
    | @cons property property' _ _ here _ ih =>
      rw [List.foldl_cons, List.foldl_cons]
      have taken : known.any (·.name == property.name) = known'.any (·.name == property'.name) := by
        rw [here.name]
        clear ih
        induction members with
        | nil => rfl
        | cons first _ ih => rw [List.any_cons, List.any_cons, first.name, ih]
      rw [taken]
      split
      · exact ih _ _ members
      · exact ih _ _ (List.rel_append members (.cons here .nil))
  index := by
    have own := h.index
    show Option.Rel R (shape.index <|> inherited.index) (shape'.index <|> inherited'.index)
    cases first : shape.index <;> cases second : shape'.index <;> rw [first, second] at own <;> cases own
    · exact from_.index
    · rename_i related
      exact .some related

theorem Relates.mergedShapeWithin (steps : Nat) {definition definition' : Definition}
    (same : ρ.DefinitionsMatch a a' definition definition') :
    Follows Never (ObjectShape.Pairs (ρ.Matches a a')) (mergedShapeWithin a steps definition)
      (mergedShapeWithin a' steps definition') := by
  induction steps generalizing definition definition' with
  | zero => exact Follows.error _ _
  | succ steps ih =>
    unfold ShapeCheck.mergedShapeWithin
    have bodies : Follows Never (ρ.Matches a a') definition.requireBody definition'.requireBody := by
      have given := same.body
      unfold Definition.requireBody
      cases first : definition.body <;> cases second : definition'.body <;> rw [first, second] at given <;>
        cases given
      · exact Follows.error _ _
      · rename_i related
        exact related
    refine bodies.bind fun body body' related => ?_
    obtain ⟨descriptor, descriptor', found, found', pair⟩ := related.lookup
    simp only [found, found']
    cases pair with
    | object own =>
      refine Follows.foldlM same.bases (fun shape shape' base base' shapes based => ?_) own
      obtain ⟨descriptor, descriptor', found, found', pair⟩ := based.lookup
      simp only [found, found']
      cases pair with
      | @reference target target' arguments arguments' related =>
        obtain ⟨inherited, inherited', there, there', inner⟩ := relates.definitions _ _ related.1
        simp only [Arena.target, there, there']
        exact (ih inner).bind fun _ _ from_ => Follows.ok (inherit shapes from_)
      | plain isPlain => cases descriptor <;> first | exact isPlain.elim | exact Follows.error _ _
      | _ => exact Follows.error _ _
    | plain isPlain => cases descriptor <;> first | exact isPlain.elim | exact Follows.error _ _
    | _ => exact Follows.error _ _

/-! ## Compilations -/

omit relates in
/-- Matching types in contexts that differ by the renaming alone. -/
structure Reads (ρ : Renaming) (a a' : Arena) (ctx : Context) (type : TypeId) (ctx' : Context)
    (type' : TypeId) : Prop where
  arena : ctx.arena = a
  arena' : ctx'.arena = a'
  options : ctx.options = ctx'.options
  substitutions : ρ.SubstitutionsMatch a a' ctx.substitution ctx'.substitution
  types : ρ.Matches a a' type type'

omit relates in
theorem Reads.other {ctx ctx' : Context} {type type' other other' : TypeId}
    (h : ρ.Reads a a' ctx type ctx' type') (types : ρ.Matches a a' other other') :
    ρ.Reads a a' ctx other ctx' other' :=
  { h with types }

omit relates in
theorem Reads.inside {ctx ctx' : Context} {type type' other other' : TypeId} {s s' : Substitution}
    (h : ρ.Reads a a' ctx type ctx' type') (substitutions : ρ.SubstitutionsMatch a a' s s')
    (types : ρ.Matches a a' other other') : ρ.Reads a a' (ctx.reading s) other (ctx'.reading s') other' where
  arena := h.arena
  arena' := h.arena'
  options := h.options
  substitutions := substitutions
  types := types

/-- References that correspond look the same. -/
theorem Relates.refers {ctx ctx' : Context} {type type' : TypeId} (h : ρ.Reads a a' ctx type ctx' type')
    {target target' : DefinitionId} {arguments arguments' : List TypeId}
    (same : ρ.definitions target target')
    (types : List.Forall₂ (ρ.Matches a a') arguments arguments') :
    ctx.Refers Never (ρ.Reads a a') ctx' target arguments target' arguments' := by
  obtain ⟨definition, definition', found, found', match_⟩ := relates.definitions target target' same
  refine ⟨by rw [h.arena, h.arena', relates.names target target' same], ?_⟩
  rw [h.arena, h.arena', found, found']
  refine .some ⟨?_, ?_, ?_, ?_⟩
  · rw [Bool.eq_iff_iff, List.isEmpty_iff_length_eq_zero, List.isEmpty_iff_length_eq_zero,
      match_.parameters.length_eq]
  · rw [h.arena, h.arena']
    exact (relates.allArguments match_.parameters types).imp fun _ _ given => given.mono fun _ _ => h.other
  · have given := match_.body
    cases first : definition.body <;> cases second : definition'.body <;> rw [first, second] at given <;>
      first | rfl | cases given
  · rw [h.arena, h.arena']
    refine (relates.enter h.substitutions match_ types).mono fun s s' inner => ⟨?_, ?_, ?_⟩
    · intro body here body' there
      have given := match_.body
      rw [here, there] at given
      cases given with
      | some related => exact h.inside inner related
    · exact match_.bases.imp fun _ _ related => h.inside inner related
    · rw [h.arena, h.arena']
      refine (relates.mergedShapeWithin maxResolutionSteps match_).mono fun shape shape' shapes => ?_
      have weaker (part part' : TypeId) (related : ρ.Matches a a' part part') := h.inside inner related
      refine ⟨shapes.properties.imp fun _ _ pair => ?_, optionRel_imp shapes.index weaker⟩
      exact ⟨pair.name, optionRel_imp pair.type weaker, pair.optional, pair.method, pair.symbolKeyed⟩

/-- Matching types look the same to a compilation. -/
theorem Relates.isSimulation : IsSimulation Never (ρ.Reads a a') where
  options h := h.options
  withExact exact h :=
    ⟨h.arena, h.arena', by rw [Context.withExact, Context.withExact, h.options], h.substitutions, h.types⟩
  keyword word h := h.other (relates.builtin _ (by cases word <;> rfl))
  descriptors := by
    intro ctx type ctx' type' h
    obtain ⟨descriptor, descriptor', found, found', pair⟩ := h.types.lookup
    rw [h.arena, h.arena', found, found']
    refine .some (Descriptor.Pairs.mono pair (fun _ _ => h.other) ?_ ?_)
    · exact fun target arguments target' arguments' related => relates.refers h related.1 related.2
    · intro id id' same
      unfold Context.Stands
      rw [h.arena, h.arena']
      exact (relates.resolveWithin maxResolutionSteps h.substitutions same).mono fun _ _ reads =>
        h.inside reads.2 reads.1

/-- Matching types are compiled to the same validator, or both compilations fail. -/
theorem Relates.compile {type type' : TypeId} (types : ρ.Matches a a' type type') (options : CompileOptions) :
    (a.compile type options).toOption = (a'.compile type' options).toOption := by
  have follows : Follows Never Eq (a.compile type options) (a'.compile type' options) :=
    relates.isSimulation.compile ⟨rfl, rfl, rfl, .nil, types⟩
  cases first : a.compile type options <;> cases second : a'.compile type' options <;>
    rw [first, second] at follows
  · rfl
  · exact follows.elim
  · exact follows.elim
  · exact congrArg some follows

end Renaming

end ShapeCheck
