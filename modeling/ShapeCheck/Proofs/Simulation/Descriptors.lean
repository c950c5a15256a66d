import ShapeCheck.Compile.Composite
import ShapeCheck.Proofs.Simulation.Outcomes

set_option autoImplicit false

/-! # Types side by side

Two types in two contexts look the same to a compilation if their descriptors say the same of parts that
look the same, their parameters stand for types that look the same, and their references lead into
definitions that do. A relation with this property is a simulation (`IsSimulation`). Related types have
the same name and the same keys, up to runs that stop early.

Main facts: `IsSimulation.nameOf`, `IsSimulation.collectKeys` and `IsSimulation.indexKeys`.
-/

namespace ShapeCheck

/-! ## Descriptors -/

theorem optionRel_imp {α β : Type} {R R' : α → β → Prop} {a? : Option α} {b? : Option β}
    (h : Option.Rel R a? b?) (weaker : ∀ a b, R a b → R' a b) : Option.Rel R' a? b? := by
  cases h with
  | none => exact .none
  | some related => exact .some (weaker _ _ related)

theorem optionRel_flip {α β : Type} {R : α → β → Prop} {a? : Option α} {b? : Option β}
    (h : Option.Rel R a? b?) : Option.Rel (flip R) b? a? := by
  cases h with
  | none => exact .none
  | some related => exact .some related

/-- The positions differ in their types at most, which are related. -/
structure TupleElement.Pairs (R : TypeId → TypeId → Prop) (element element' : TupleElement) : Prop where
  type : R element.type element'.type
  optional : element.optional = element'.optional

/-- The members differ in their types at most, which are related. -/
structure Property.Pairs (R : TypeId → TypeId → Prop) (property property' : Property) : Prop where
  name : property.name = property'.name
  type : Option.Rel R property.type property'.type
  optional : property.optional = property'.optional
  method : property.method = property'.method
  symbolKeyed : property.symbolKeyed = property'.symbolKeyed

theorem TupleElement.Pairs.flip {R : TypeId → TypeId → Prop} {element element' : TupleElement}
    (h : element.Pairs R element') : element'.Pairs (flip R) element :=
  ⟨h.type, h.optional.symm⟩

theorem Property.Pairs.flip {R : TypeId → TypeId → Prop} {property property' : Property}
    (h : property.Pairs R property') : property'.Pairs (flip R) property :=
  ⟨h.name.symm, optionRel_flip h.type, h.optional.symm, h.method.symm, h.symbolKeyed.symm⟩

/-- The shapes have the same members up to related types. -/
structure ObjectShape.Pairs (R : TypeId → TypeId → Prop) (shape shape' : ObjectShape) : Prop where
  properties : List.Forall₂ (Property.Pairs R) shape.properties shape'.properties
  index : Option.Rel R shape.index shape'.index

/-- A shape has its own members if their types are related to themselves. -/
theorem ObjectShape.Pairs.self {R : TypeId → TypeId → Prop} {shape : ObjectShape}
    (parts : ∀ child ∈ (Descriptor.object shape).children, R child child) : shape.Pairs R shape where
  properties := by
    refine List.forall₂_same.2 fun property listed => ⟨rfl, ?_, rfl, rfl, rfl⟩
    cases typed : property.type with
    | none => exact .none
    | some type =>
      exact .some (parts type (List.mem_append_left _ (List.mem_filterMap.2 ⟨property, listed, typed⟩)))
  index := by
    cases indexed : shape.index with
    | none => exact .none
    | some type => exact .some (parts type (List.mem_append_right _ (by simp [indexed])))

namespace Descriptor

/-- The descriptor has no parts at all. -/
def IsPlain : Descriptor → Prop
  | keyword _ | stringLiteral _ | numberLiteral _ | booleanLiteral _ | buffer | view _ => True
  | _ => False

/-- The descriptors say the same, of parts, definitions and parameters that are related. -/
inductive Pairs (R : TypeId → TypeId → Prop)
    (Refers : DefinitionId → List TypeId → DefinitionId → List TypeId → Prop)
    (Stands : ParameterId → ParameterId → Prop) : Descriptor → Descriptor → Prop
  | plain {descriptor : Descriptor} (h : descriptor.IsPlain) : Pairs R Refers Stands descriptor descriptor
  | array {element element' : TypeId} (h : R element element') :
      Pairs R Refers Stands (.array element) (.array element')
  | tuple {elements elements' : List TupleElement}
      (h : List.Forall₂ (TupleElement.Pairs R) elements elements') :
      Pairs R Refers Stands (.tuple elements) (.tuple elements')
  | object {shape shape' : ObjectShape} (h : shape.Pairs R shape') :
      Pairs R Refers Stands (.object shape) (.object shape')
  | union {members members' : List TypeId} (h : List.Forall₂ R members members') :
      Pairs R Refers Stands (.union members) (.union members')
  | intersection {members members' : List TypeId} (h : List.Forall₂ R members members') :
      Pairs R Refers Stands (.intersection members) (.intersection members')
  | reference {target target' : DefinitionId} {arguments arguments' : List TypeId}
      (h : Refers target arguments target' arguments') :
      Pairs R Refers Stands (.reference target arguments) (.reference target' arguments')
  | parameter {id id' : ParameterId} (h : Stands id id') :
      Pairs R Refers Stands (.parameter id) (.parameter id')
  | indexAccess {whole whole' key key' : TypeId} (h : R whole whole') (h' : R key key') :
      Pairs R Refers Stands (.indexAccess whole key) (.indexAccess whole' key')
  | keyof {operand operand' : TypeId} (h : R operand operand') :
      Pairs R Refers Stands (.keyof operand) (.keyof operand')

/-- A descriptor says the same as itself if all its parts are related to themselves. -/
theorem Pairs.self {R : TypeId → TypeId → Prop}
    {Refers : DefinitionId → List TypeId → DefinitionId → List TypeId → Prop}
    {Stands : ParameterId → ParameterId → Prop} {descriptor : Descriptor}
    (parts : ∀ child ∈ descriptor.children, R child child)
    (refers : ∀ target arguments, descriptor = .reference target arguments →
      Refers target arguments target arguments)
    (stands : ∀ id, descriptor = .parameter id → Stands id id) :
    descriptor.Pairs R Refers Stands descriptor := by
  cases descriptor with
  | keyword | stringLiteral | numberLiteral | booleanLiteral | buffer | view => exact .plain trivial
  | array element => exact .array (parts element List.mem_cons_self)
  | tuple elements =>
    refine .tuple (List.forall₂_same.2 fun element listed => ⟨?_, rfl⟩)
    exact parts element.type (List.mem_map_of_mem listed)
  | object shape => exact .object (ObjectShape.Pairs.self parts)
  | union members => exact .union (List.forall₂_same.2 parts)
  | intersection members => exact .intersection (List.forall₂_same.2 parts)
  | reference target arguments => exact .reference (refers target arguments rfl)
  | parameter id => exact .parameter (stands id rfl)
  | indexAccess whole key =>
    exact .indexAccess (parts whole (by simp [children])) (parts key (by simp [children]))
  | keyof operand => exact .keyof (parts operand List.mem_cons_self)

/-- Pairs in one relation are pairs in a weaker one. -/
theorem Pairs.mono {R R' : TypeId → TypeId → Prop}
    {Refers Refers' : DefinitionId → List TypeId → DefinitionId → List TypeId → Prop}
    {Stands Stands' : ParameterId → ParameterId → Prop} {descriptor descriptor' : Descriptor}
    (h : descriptor.Pairs R Refers Stands descriptor') (parts : ∀ x y, R x y → R' x y)
    (refers : ∀ target arguments target' arguments', Refers target arguments target' arguments' →
      Refers' target arguments target' arguments')
    (stands : ∀ id id', Stands id id' → Stands' id id') :
    descriptor.Pairs R' Refers' Stands' descriptor' := by
  cases h with
  | plain isPlain => exact .plain isPlain
  | array related => exact .array (parts _ _ related)
  | tuple related => exact .tuple (related.imp fun _ _ pair => ⟨parts _ _ pair.type, pair.optional⟩)
  | object related =>
    refine .object ⟨related.properties.imp fun _ _ pair => ?_, optionRel_imp related.index parts⟩
    exact ⟨pair.name, optionRel_imp pair.type parts, pair.optional, pair.method, pair.symbolKeyed⟩
  | union related => exact .union (related.imp parts)
  | intersection related => exact .intersection (related.imp parts)
  | reference related => exact .reference (refers _ _ _ _ related)
  | parameter related => exact .parameter (stands _ _ related)
  | indexAccess whole key => exact .indexAccess (parts _ _ whole) (parts _ _ key)
  | keyof related => exact .keyof (parts _ _ related)

end Descriptor

/-! ## Simulations -/

section
variable (stop : CompileError → Prop) (S : Context → TypeId → Context → TypeId → Prop)

/-- What two references find inside of their definitions is related. -/
structure Context.InsideAlike (ctx inside : Context) (definition : Definition) (ctx' inside' : Context)
    (definition' : Definition) : Prop where
  body : ∀ body ∈ definition.body, ∀ body' ∈ definition'.body, S inside body inside' body'
  bases : List.Forall₂ (fun base base' => S inside base inside' base') definition.bases definition'.bases
  merged : Follows stop (ObjectShape.Pairs fun type type' => S inside type inside' type')
    (ctx.arena.mergedShape definition) (ctx'.arena.mergedShape definition')

/-- References to the two definitions look the same. -/
structure Context.DefinitionsAlike (ctx ctx' : Context) (definition definition' : Definition)
    (arguments arguments' : List TypeId) : Prop where
  generic : definition.parameters.isEmpty = definition'.parameters.isEmpty
  given : List.Forall₂ (Follows stop fun type type' => S ctx type ctx' type')
    (ctx.arena.allArguments definition.parameters arguments)
    (ctx'.arena.allArguments definition'.parameters arguments')
  body : definition.body.isSome = definition'.body.isSome
  inside : Follows stop (fun s s' => ctx.InsideAlike stop S (ctx.reading s) definition ctx'
      (ctx'.reading s') definition')
    (ctx.substitution.enter ctx.arena definition arguments)
    (ctx'.substitution.enter ctx'.arena definition' arguments')

/-- The two references look the same. -/
structure Context.Refers (ctx ctx' : Context) (target : DefinitionId) (arguments : List TypeId)
    (target' : DefinitionId) (arguments' : List TypeId) : Prop where
  name : ctx.arena.definitionName target = ctx'.arena.definitionName target'
  leads : Option.Rel (fun definition definition' =>
      ctx.DefinitionsAlike stop S ctx' definition definition' arguments arguments')
    (ctx.arena.definition? target) (ctx'.arena.definition? target')

/-- The two parameters stand for types that look the same. -/
def Context.Stands (ctx ctx' : Context) (id id' : ParameterId) : Prop :=
  Follows stop (fun found found' => S (ctx.reading found.2) found.1 (ctx'.reading found'.2) found'.1)
    (ctx.substitution.resolve ctx.arena id) (ctx'.substitution.resolve ctx'.arena id')

/-- Related types look the same to a compilation. -/
structure IsSimulation : Prop where
  options : ∀ {ctx type ctx' type'}, S ctx type ctx' type' → ctx.options = ctx'.options
  withExact : ∀ {ctx type ctx' type'} (exact : Bool), S ctx type ctx' type' →
    S (ctx.withExact exact) type (ctx'.withExact exact) type'
  keyword : ∀ {ctx type ctx' type'} (word : Keyword), S ctx type ctx' type' →
    S ctx (.ofKeyword word) ctx' (.ofKeyword word)
  descriptors : ∀ {ctx type ctx' type'}, S ctx type ctx' type' →
    Option.Rel (Descriptor.Pairs (fun part part' => S ctx part ctx' part') (ctx.Refers stop S ctx')
        (ctx.Stands stop S ctx'))
      (ctx.arena.lookup? type) (ctx'.arena.lookup? type')

end

/-! ## Looking up -/

section
variable {stop : CompileError → Prop} {S : Context → TypeId → Context → TypeId → Prop}
  {ctx ctx' : Context} {type type' : TypeId}

/-- The descriptors of two types say the same, up to what `S` relates. -/
abbrev Context.Pairs (stop : CompileError → Prop) (S : Context → TypeId → Context → TypeId → Prop)
    (ctx ctx' : Context) : Descriptor → Descriptor → Prop :=
  Descriptor.Pairs (fun part part' => S ctx part ctx' part') (ctx.Refers stop S ctx')
    (ctx.Stands stop S ctx')

theorem IsSimulation.lookup (sim : IsSimulation stop S) (h : S ctx type ctx' type') :
    Follows stop (ctx.Pairs stop S ctx') (ctx.arena.lookup type) (ctx'.arena.lookup type') := by
  have found := sim.descriptors h
  unfold Arena.lookup
  cases here : ctx.arena.lookup? type <;> cases there : ctx'.arena.lookup? type' <;>
    rw [here, there] at found <;> cases found
  · exact Follows.error _ _
  · rename_i related
    exact related

/-- Two references lead to definitions that look the same. -/
theorem Context.Refers.target {target target' : DefinitionId} {arguments arguments' : List TypeId}
    (h : ctx.Refers stop S ctx' target arguments target' arguments') :
    Follows stop
      (fun definition definition' =>
        ctx.DefinitionsAlike stop S ctx' definition definition' arguments arguments')
      (ctx.arena.target type target) (ctx'.arena.target type' target') := by
  have leads := h.leads
  unfold Arena.target
  cases here : ctx.arena.definition? target <;> cases there : ctx'.arena.definition? target' <;>
    rw [here, there] at leads <;> cases leads
  · exact Follows.error _ _
  · rename_i related
    exact related

theorem Context.Stands.resolve {id id' : ParameterId} (h : ctx.Stands stop S ctx' id id') :
    Follows stop (fun found found' => S found.2 found.1 found'.2 found'.1) (ctx.resolve id)
      (ctx'.resolve id') :=
  h.bind fun _ _ related => related

theorem Context.DefinitionsAlike.enter {definition definition' : Definition}
    {arguments arguments' : List TypeId}
    (h : ctx.DefinitionsAlike stop S ctx' definition definition' arguments arguments') :
    Follows stop
      (fun inside inside' => ctx.InsideAlike stop S inside definition ctx' inside' definition')
      (ctx.enter definition arguments) (ctx'.enter definition' arguments') :=
  h.inside.bind fun _ _ related => related

theorem Context.DefinitionsAlike.requireBody {definition definition' : Definition}
    {arguments arguments' : List TypeId}
    (h : ctx.DefinitionsAlike stop S ctx' definition definition' arguments arguments') :
    Follows stop (fun body body' => body ∈ definition.body ∧ body' ∈ definition'.body)
      definition.requireBody definition'.requireBody := by
  have same := h.body
  unfold Definition.requireBody
  cases here : definition.body <;> cases there : definition'.body <;> rw [here, there] at same <;>
    try cases same
  · exact Follows.error _ _
  · exact ⟨rfl, rfl⟩

/-! ## Names -/

section
variable {arena arena' : Arena} {s s' : Substitution} {exact : Bool}
  {name name' : Substitution → Bool → TypeId → Except CompileError String}
  {R : TypeId → TypeId → Prop}
  (named : ∀ type type' exact, R type type' → Follows stop Eq (name s exact type) (name' s' exact type'))
include named

theorem TupleElement.Pairs.nameWith {element element' : TupleElement} (h : element.Pairs R element') :
    Follows stop Eq (element.nameWith name s exact) (element'.nameWith name' s' exact) := by
  unfold TupleElement.nameWith
  rw [h.optional]
  exact (named _ _ _ h.type).bind fun _ _ same => same ▸ Follows.refl _

omit named in
theorem Property.Pairs.label_eq {property property' : Property} (h : property.Pairs R property') :
    property.label = property'.label := by
  unfold Property.label
  rw [h.name, h.optional]

theorem Property.Pairs.nameWith {property property' : Property} (h : property.Pairs R property') :
    Follows stop Eq (property.nameWith name s exact) (property'.nameWith name' s' exact) := by
  have typed := h.type
  unfold Property.nameWith
  rw [h.method, h.label_eq]
  cases here : property.type <;> cases there : property'.type <;> rw [here, there] at typed <;> cases typed
  · exact Follows.refl _
  · rename_i related
    split
    · exact Follows.refl _
    · exact (named _ _ _ related).bind fun _ _ same => same ▸ Follows.refl _

omit named in
/-- The members that are not keyed by symbols. -/
theorem ObjectShape.Pairs.visible {shape shape' : ObjectShape} (h : shape.Pairs R shape') :
    List.Forall₂ (Property.Pairs R) (shape.properties.filter (!·.symbolKeyed))
      (shape'.properties.filter (!·.symbolKeyed)) := by
  have members := h.properties
  generalize shape.properties = properties at members ⊢
  generalize shape'.properties = properties' at members ⊢
  induction members with
  | nil => exact .nil
  | cons here _ ih =>
    rw [List.filter_cons, List.filter_cons, here.symbolKeyed]
    split
    · exact .cons here ih
    · exact ih

theorem ObjectShape.Pairs.nameWith {shape shape' : ObjectShape} (h : shape.Pairs R shape') :
    Follows stop Eq (shape.nameWith name s exact) (shape'.nameWith name' s' exact) := by
  unfold ObjectShape.nameWith
  have each : List.Forall₂ (fun property property' =>
      Follows stop Eq (Property.nameWith name s exact property) (Property.nameWith name' s' exact property'))
      (shape.properties.filter (!·.symbolKeyed)) (shape'.properties.filter (!·.symbolKeyed)) :=
    h.visible.imp fun _ _ pair => pair.nameWith named
  have members := Follows.mapM each
  refine members.bind fun texts texts' same => ?_
  obtain rfl : texts = texts' := List.forall₂_eq_eq_eq ▸ same
  have indexed := h.index
  have index : Follows stop (List.Forall₂ Eq)
      (shape.index.toList.mapM fun type => do return "[key: string]: " ++ (← name s exact type))
      (shape'.index.toList.mapM fun type => do return "[key: string]: " ++ (← name' s' exact type)) := by
    refine Follows.mapM ?_
    cases here : shape.index <;> cases there : shape'.index <;> rw [here, there] at indexed <;>
      cases indexed
    · exact .nil
    · rename_i related
      exact .cons ((named _ _ _ related).bind fun _ _ same => same ▸ Follows.refl _) .nil
  refine index.bind fun signature signature' same => ?_
  obtain rfl : signature = signature' := List.forall₂_eq_eq_eq ▸ same
  exact Follows.refl _

theorem follows_membersNameWith {separator : String} {members members' : List TypeId}
    (h : List.Forall₂ R members members') :
    Follows stop Eq (membersNameWith name s exact separator members)
      (membersNameWith name' s' exact separator members') := by
  unfold membersNameWith
  refine (Follows.mapM (h.imp fun _ _ related => named _ _ exact related)).bind fun names names' same => ?_
  obtain rfl : names = names' := List.forall₂_eq_eq_eq ▸ same
  exact Follows.refl _

end

/-- Related types have the same name. -/
theorem IsSimulation.typeName (sim : IsSimulation stop S) (depth : Nat) (exact : Bool)
    (h : S ctx type ctx' type') :
    Follows stop Eq (typeNameWithin ctx.arena depth ctx.substitution exact type)
      (typeNameWithin ctx'.arena depth ctx'.substitution exact type') := by
  induction depth generalizing ctx type ctx' type' exact with
  | zero => exact Follows.error _ _
  | succ depth ih =>
    unfold typeNameWithin
    refine (sim.lookup h).bind fun descriptor descriptor' pair => ?_
    have named (part part' : TypeId) (exact : Bool) (related : S ctx part ctx' part') :
        Follows stop Eq (typeNameWithin ctx.arena depth ctx.substitution exact part)
          (typeNameWithin ctx'.arena depth ctx'.substitution exact part') := ih exact related
    cases pair with
    | @plain descriptor isPlain =>
      cases descriptor <;> first | exact isPlain.elim | exact Follows.refl _
    | array related =>
      exact (named _ _ exact related).bind fun _ _ same => same ▸ Follows.refl _
    | @tuple elements elements' related =>
      have each : List.Forall₂ (fun element element' => Follows stop Eq
          (TupleElement.nameWith (typeNameWithin ctx.arena depth) ctx.substitution exact element)
          (TupleElement.nameWith (typeNameWithin ctx'.arena depth) ctx'.substitution exact element'))
          elements elements' := related.imp fun _ _ pair => pair.nameWith named
      refine (Follows.mapM each).bind fun names names' same => ?_
      obtain rfl : names = names' := List.forall₂_eq_eq_eq ▸ same
      exact Follows.refl _
    | object related =>
      exact (related.nameWith named).bind fun _ _ same => same ▸ Follows.refl _
    | union related => exact follows_membersNameWith named related
    | intersection related =>
      exact (follows_membersNameWith named related).bind fun _ _ same => same ▸ Follows.refl _
    | @reference target target' arguments arguments' refers =>
      refine Follows.bind (R := Eq) ?_ fun _ _ same => same ▸ Follows.refl _
      have leads := refers.leads
      unfold referenceNameWith
      rw [refers.name]
      cases here : ctx.arena.definition? target <;> cases there : ctx'.arena.definition? target' <;>
        rw [here, there] at leads <;> cases leads
      · exact Follows.refl _
      · rename_i alike
        simp only [alike.generic]
        split
        · exact Follows.refl _
        · refine (Follows.mapM (alike.given.imp fun _ _ given => given.bind fun part part' related =>
            named part part' exact related)).bind fun names names' same => ?_
          obtain rfl : names = names' := List.forall₂_eq_eq_eq ▸ same
          exact Follows.refl _
    | parameter stands => exact Follows.bind stands fun found found' related => ih exact related
    | indexAccess whole key =>
      refine (named _ _ false whole).bind fun _ _ same => ?_
      subst same
      exact (named _ _ false key).bind fun _ _ same => same ▸ Follows.refl _
    | keyof related =>
      exact (named _ _ false related).bind fun _ _ same => same ▸ Follows.refl _

theorem IsSimulation.nameOf (sim : IsSimulation stop S) (depth : Nat) (h : S ctx type ctx' type') :
    Follows stop Eq (ctx.nameOf depth type) (ctx'.nameOf depth type') := by
  have same : ctx.exact = ctx'.exact := by rw [Context.exact, Context.exact, sim.options h]
  unfold Context.nameOf
  rw [same]
  exact sim.typeName depth _ h

/-! ## Keys -/

theorem ObjectShape.Pairs.keys_eq {R : TypeId → TypeId → Prop} {shape shape' : ObjectShape}
    (h : shape.Pairs R shape') : shape.keys = shape'.keys := by
  unfold ObjectShape.keys
  congr 1
  have members := h.visible
  generalize shape.properties.filter (!·.symbolKeyed) = properties at members ⊢
  generalize shape'.properties.filter (!·.symbolKeyed) = properties' at members ⊢
  induction members with
  | nil => rfl
  | cons here _ ih => rw [List.map_cons, List.map_cons, here.name, ih]

theorem ObjectShape.Pairs.index_isNone {R : TypeId → TypeId → Prop} {shape shape' : ObjectShape}
    (h : shape.Pairs R shape') : shape.index.isNone = shape'.index.isNone := by
  have indexed := h.index
  cases here : shape.index <;> cases there : shape'.index <;> rw [here, there] at indexed <;>
    first | rfl | cases indexed

theorem follows_gatherKeys {keysOf keysOf' : TypeId → Except CompileError KeySet}
    {types types' : List TypeId}
    (h : List.Forall₂ (fun type type' => Follows stop Eq (keysOf type) (keysOf' type')) types types')
    (known : List String) :
    Follows stop Eq (gatherKeys keysOf known types) (gatherKeys keysOf' known types') := by
  induction h generalizing known with
  | nil => exact Follows.refl _
  | cons here _ ih =>
    unfold gatherKeys
    refine here.bind fun found _ same => ?_
    subst same
    cases found with
    | none => exact Follows.refl _
    | some keys => exact ih _

/-- What is inside of two references: the body and the bases. -/
theorem Context.InsideAlike.parts {inside inside' : Context} {definition definition' : Definition}
    (h : ctx.InsideAlike stop S inside definition ctx' inside' definition') {body body' : TypeId}
    (given : body ∈ definition.body ∧ body' ∈ definition'.body) :
    List.Forall₂ (fun part part' => S inside part inside' part') (body :: definition.bases)
      (body' :: definition'.bases) :=
  .cons (h.body body given.1 body' given.2) h.bases

theorem IsSimulation.collectKeysWithin (sim : IsSimulation stop S) (depth steps : Nat)
    (h : S ctx type ctx' type') :
    Follows stop Eq (ShapeCheck.collectKeysWithin depth steps ctx type)
      (ShapeCheck.collectKeysWithin depth steps ctx' type') := by
  induction steps generalizing ctx type ctx' type' with
  | zero =>
    -- both runs are out of steps, whatever the types are called
    unfold ShapeCheck.collectKeysWithin
    cases ctx.describe depth type <;> cases ctx'.describe depth type' <;> exact Follows.error _ _
  | succ steps ih =>
    unfold ShapeCheck.collectKeysWithin
    refine (sim.lookup h).bind fun descriptor descriptor' pair => ?_
    cases pair with
    | @plain descriptor isPlain =>
      cases descriptor with
      | keyword word => cases word <;> exact Follows.refl _
      | stringLiteral | numberLiteral | booleanLiteral | buffer | view => exact Follows.refl _
      | _ => exact isPlain.elim
    | object related =>
      simp only [related.index_isNone, related.keys_eq]
      exact Follows.refl _
    | union related => exact follows_gatherKeys (related.imp fun _ _ part => ih part) []
    | intersection related => exact follows_gatherKeys (related.imp fun _ _ part => ih part) []
    | reference refers =>
      refine refers.target.bind fun definition definition' alike => ?_
      refine alike.enter.bind fun inside inside' within => ?_
      refine alike.requireBody.bind fun body body' given => ?_
      exact follows_gatherKeys ((within.parts given).imp fun _ _ part => ih part) []
    | parameter stands => exact stands.resolve.bind fun found found' related => ih related
    | array | tuple | indexAccess | keyof => exact Follows.refl _

theorem IsSimulation.collectKeys (sim : IsSimulation stop S) (depth : Nat) (h : S ctx type ctx' type') :
    Follows stop Eq (ctx.collectKeys depth type) (ctx'.collectKeys depth type') :=
  sim.collectKeysWithin depth maxResolutionSteps h

theorem IsSimulation.indexKeysWithin (sim : IsSimulation stop S) (depth steps : Nat)
    (h : S ctx type ctx' type') :
    Follows stop Eq (ShapeCheck.indexKeysWithin depth steps ctx type)
      (ShapeCheck.indexKeysWithin depth steps ctx' type') := by
  induction steps generalizing ctx type ctx' type' with
  | zero => exact Follows.error _ _
  | succ steps ih =>
    unfold ShapeCheck.indexKeysWithin
    refine (sim.lookup h).bind fun descriptor descriptor' pair => ?_
    cases pair with
    | @plain descriptor isPlain =>
      cases descriptor with
      | keyword word => cases word <;> first | exact Follows.refl _ | exact Follows.error _ _
      | stringLiteral | numberLiteral => exact Follows.refl _
      | booleanLiteral | buffer | view => exact Follows.error _ _
      | _ => exact isPlain.elim
    | union related =>
      refine Follows.foldlM related (fun known _ member member' same here => ?_) rfl
      subst same
      exact (ih here).bind fun keys _ same => same ▸ Follows.refl _
    | parameter stands => exact stands.resolve.bind fun found found' related => ih related
    | reference refers =>
      refine refers.target.bind fun definition definition' alike => ?_
      refine alike.requireBody.bind fun body body' given => ?_
      refine alike.enter.bind fun inside inside' within => ?_
      exact ih (within.body body given.1 body' given.2)
    | keyof related =>
      exact (sim.collectKeys depth related).bind fun found _ same => same ▸ Follows.refl _
    | object | array | tuple | intersection | indexAccess => exact Follows.error _ _

theorem IsSimulation.indexKeys (sim : IsSimulation stop S) (depth : Nat) (h : S ctx type ctx' type') :
    Follows stop Eq (ctx.indexKeys depth type) (ctx'.indexKeys depth type') :=
  sim.indexKeysWithin depth maxResolutionSteps h

end

end ShapeCheck
