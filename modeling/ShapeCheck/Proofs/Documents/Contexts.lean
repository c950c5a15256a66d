import ShapeCheck.Proofs.Documents.Bindings

set_option autoImplicit false

/-! # Types that fit a context

In a sound arena with all bodies, types that can be read lead to types that can be read: parts of types,
what a parameter stands for, and bodies, bases and inherited members inside of a reference. So spelling a
name and collecting keys never find something missing.

Main facts: `Context.Fits.body` and `Context.Fits.mergedShape` (what a reference leads to),
`Context.Fits.nameOf`, `Context.Fits.collectKeys` and `Context.Fits.indexKeys`.
-/

namespace ShapeCheck

variable {full : Prop} {arena : Arena} {ctx inside visible : Context} {type target : TypeId}

/-! ## Contexts that are closed -/

/-- The arena is sound, and all definitions have their bodies. -/
structure Arena.IsComplete (full : Prop) (arena : Arena) : Prop where
  sound : arena.IsSound full
  bodies : ∀ id definition, arena.definition? id = some definition → definition.body.isSome

/-- The type can be read in the context. -/
structure Context.Fits (full : Prop) (ctx : Context) (type : TypeId) : Prop where
  complete : ctx.arena.IsComplete full
  closed : ctx.substitution.IsClosed full ctx.arena
  reads : ctx.substitution.Reads full ctx.arena type

/-- Errors that may occur. -/
abbrev Allowed (full : Prop) : CompileError → Prop := CompileError.IsAllowed full

namespace Context.Fits

theorem exists_lookup? (fits : ctx.Fits full type) :
    ∃ descriptor, ctx.arena.lookup? type = some descriptor :=
  Arena.exists_lookup?_of_lt fits.reads.1

theorem lookup (fits : ctx.Fits full type) : OnlyErrors (Allowed full) (ctx.arena.lookup type) := by
  obtain ⟨descriptor, found⟩ := fits.exists_lookup?
  simp only [Arena.lookup, found]
  exact .ok _

theorem child (fits : ctx.Fits full type) {descriptor : Descriptor}
    (found : ctx.arena.lookup? type = some descriptor) {child : TypeId}
    (inside : child ∈ descriptor.children) : ctx.Fits full child :=
  ⟨fits.complete, fits.closed, fits.reads.child fits.complete.sound.ordered found inside⟩

theorem withExact (fits : ctx.Fits full type) (exact : Bool) : (ctx.withExact exact).Fits full type :=
  ⟨fits.complete, fits.closed, fits.reads⟩

theorem builtin (fits : ctx.Fits full type) {other : TypeId} (builtin : other.isBuiltin = true) :
    ctx.Fits full other :=
  ⟨fits.complete, fits.closed,
    Substitution.reads_of_writtenIn (fits.complete.sound.writtenIn_builtin builtin []) fun _ => nofun⟩

theorem resolve (fits : ctx.Fits full type) {id : ParameterId}
    (found : ctx.arena.lookup? type = some (.parameter id)) :
    OnlyErrors (Allowed full) (ctx.resolve id) ∧
      ∀ target visible, ctx.resolve id = .ok (target, visible) → visible.Fits full target := by
  obtain ⟨errors, results⟩ :=
    fits.closed.resolveWithin fits.complete.sound (fits.reads.bound found) maxResolutionSteps
  refine ⟨errors.bind fun found _ => .ok _, fun target visible stands => ?_⟩
  obtain ⟨⟨other, s⟩, resolved, made⟩ := bind_eq_ok.1 stands
  cases made
  obtain ⟨closed, reads⟩ := results target s resolved
  exact ⟨fits.complete, closed, reads⟩

variable {definition : Definition} {id : DefinitionId} {arguments : List TypeId}

/-- A reference leads to a definition with a body. -/
theorem exists_target (fits : ctx.Fits full type)
    (found : ctx.arena.lookup? type = some (.reference id arguments)) :
    ∃ definition body, ctx.arena.definition? id = some definition ∧
      ctx.arena.target type id = .ok definition ∧ definition.requireBody = .ok body ∧
        definition.body = some body := by
  obtain ⟨definition, known, -⟩ := fits.complete.sound.references type id arguments found
  obtain ⟨body, given⟩ := Option.isSome_iff_exists.1 (fits.complete.bodies id definition known)
  exact ⟨definition, body, known, by simp [Arena.target, known],
    by simp [Definition.requireBody, given], given⟩

theorem onlyErrors_enter (ctx : Context) (definition : Definition) (arguments : List TypeId) :
    OnlyErrors (Allowed full) (ctx.enter definition arguments) :=
  (Substitution.onlyErrors_enter _ _ _).bind fun _ _ => .ok _

/-- What is written in the parameters of a definition and of all that it inherits fits inside of a
reference to it. -/
theorem enter (fits : ctx.Fits full type)
    (found : ctx.arena.lookup? type = some (.reference id arguments))
    (known : ctx.arena.definition? id = some definition)
    (entered : ctx.enter definition arguments = .ok inside) {part : TypeId}
    (written : ctx.arena.WrittenIn (ctx.arena.boundParameters definition) part) :
    inside.Fits full part := by
  obtain ⟨s, opened, made⟩ := bind_eq_ok.1 entered
  cases made
  obtain ⟨closed, bound⟩ := fits.closed.enter fits.complete.sound fits.reads found known opened
  exact ⟨fits.complete, closed, Substitution.reads_of_writtenIn written bound⟩

theorem body (fits : ctx.Fits full type)
    (found : ctx.arena.lookup? type = some (.reference id arguments))
    (known : ctx.arena.definition? id = some definition)
    (entered : ctx.enter definition arguments = .ok inside) {body : TypeId}
    (given : definition.body = some body) : inside.Fits full body := by
  have written := fits.complete.sound.bodies id definition known body given
  exact fits.enter found known entered (written.mono fun _ own => List.mem_append_left _ own)

theorem base (fits : ctx.Fits full type)
    (found : ctx.arena.lookup? type = some (.reference id arguments))
    (known : ctx.arena.definition? id = some definition)
    (entered : ctx.enter definition arguments = .ok inside) {base : TypeId}
    (listed : base ∈ definition.bases) : inside.Fits full base := by
  have written := (fits.complete.sound.bases id definition known base listed).1
  exact fits.enter found known entered (written.mono fun _ own => List.mem_append_left _ own)

theorem mergedShape (fits : ctx.Fits full type)
    (found : ctx.arena.lookup? type = some (.reference id arguments))
    (known : ctx.arena.definition? id = some definition)
    (entered : ctx.enter definition arguments = .ok inside) :
    OnlyErrors (Allowed full) (ctx.arena.mergedShape definition) ∧
      ∀ shape, ctx.arena.mergedShape definition = .ok shape →
        ∀ part ∈ (Descriptor.object shape).children, inside.Fits full part := by
  obtain ⟨errors, written⟩ := writtenIn_mergedShapeWithin fits.complete.sound fits.complete.bodies
    maxResolutionSteps known
  exact ⟨errors, fun shape made part listed =>
    fits.enter found known entered (written shape made part listed)⟩

end Context.Fits

/-! ## Names -/

section
variable {s : Substitution}

theorem onlyErrors_allArguments (defaults : ∀ id type, arena.default? id = some type →
      type.index < arena.descriptors.size) {parameters : List ParameterId} {arguments : List TypeId}
    (reads : ∀ argument ∈ arguments, s.Reads full arena argument)
    (enough : full → parameters.length ≤ arguments.length) :
    ∀ argument ∈ arena.allArguments parameters arguments,
      OnlyErrors (Allowed full) argument ∧ ∀ type, argument = .ok type → s.Reads full arena type := by
  induction parameters generalizing arguments with
  | nil => exact nofun
  | cons parameter rest ih =>
    cases arguments with
    | cons first arguments =>
      intro argument listed
      rcases List.mem_cons.1 listed with rfl | listed
      · refine ⟨.ok _, ?_⟩
        rintro _ ⟨⟩
        exact reads first List.mem_cons_self
      · exact ih (fun other among => reads other (List.mem_cons_of_mem _ among))
          (fun given => Nat.le_of_succ_le_succ (enough given)) argument listed
    | nil =>
      have partly (given : full) : False := Nat.not_succ_le_zero _ (enough given)
      intro argument listed
      rcases List.mem_cons.1 listed with rfl | listed
      · cases isDefault : arena.default? parameter with
        | some type =>
          refine ⟨.ok _, ?_⟩
          rintro _ ⟨⟩
          exact ⟨defaults parameter type isDefault, fun given => absurd given partly⟩
        | none => exact ⟨.error ⟨nofun, fun given => absurd given partly⟩, nofun⟩
      · have none : ∀ argument ∈ ([] : List TypeId), s.Reads full arena argument := nofun
        exact ih none (fun given => absurd given partly) argument listed

theorem onlyErrors_membersNameWith {name : Substitution → Bool → TypeId → Except CompileError String}
    {separator : String} {exact : Bool} {members : List TypeId}
    (named : ∀ member ∈ members, OnlyErrors (Allowed full) (name s exact member)) :
    OnlyErrors (Allowed full) (membersNameWith name s exact separator members) :=
  (OnlyErrors.mapM named).bind fun _ _ => .ok _

theorem onlyErrors_objectNameWith {name : Substitution → Bool → TypeId → Except CompileError String}
    {exact : Bool} {shape : ObjectShape}
    (named : ∀ part ∈ (Descriptor.object shape).children, OnlyErrors (Allowed full) (name s exact part)) :
    OnlyErrors (Allowed full) (shape.nameWith name s exact) := by
  have member (property : Property) (listed : property ∈ shape.properties) :
      OnlyErrors (Allowed full) (property.nameWith name s exact) := by
    unfold Property.nameWith
    split
    · exact .ok _
    · split
      · rename_i part typed
        have among : part ∈ (Descriptor.object shape).children :=
          List.mem_append_left _ (List.mem_filterMap.2 ⟨property, listed, typed⟩)
        exact (named part among).bind fun _ _ => .ok _
      · exact .ok _
  unfold ObjectShape.nameWith
  refine (OnlyErrors.mapM fun property kept => member property (List.mem_filter.1 kept).1).bind
    fun members _ => ?_
  refine (OnlyErrors.mapM fun part listed => ?_).bind fun index _ => .ok _
  exact (named part (List.mem_append_right _ listed)).bind fun _ _ => .ok _

/-- Spelling a name finds nothing missing. -/
theorem onlyErrors_typeNameWithin (complete : arena.IsComplete full) (depth : Nat)
    (closed : s.IsClosed full arena) (exact : Bool) {type : TypeId} (reads : s.Reads full arena type) :
    OnlyErrors (Allowed full) (typeNameWithin arena depth s exact type) := by
  induction depth generalizing s exact type with
  | zero => exact .error ⟨nofun, fun _ => nofun⟩
  | succ depth ih =>
    obtain ⟨descriptor, found⟩ := Arena.exists_lookup?_of_lt reads.1
    have parts (part : TypeId) (listed : part ∈ descriptor.children) (exact : Bool) :
        OnlyErrors (Allowed full) (typeNameWithin arena depth s exact part) :=
      ih closed exact (reads.child complete.sound.ordered found listed)
    simp only [typeNameWithin, Arena.lookup, found]
    show OnlyErrors _ (descriptor.nameWith arena (typeNameWithin arena depth) s exact)
    cases descriptor with
    | keyword | stringLiteral | numberLiteral | booleanLiteral | buffer | view =>
      simp only [Descriptor.nameWith]
      exact .ok _
    | array element =>
      simp only [Descriptor.nameWith]
      exact (parts element (by simp [Descriptor.children]) exact).bind fun _ _ => .ok _
    | tuple elements =>
      simp only [Descriptor.nameWith]
      refine (OnlyErrors.mapM fun element listed => ?_).bind fun _ _ => .ok _
      exact (parts element.type (List.mem_map_of_mem listed) exact).bind fun _ _ => .ok _
    | object shape =>
      simp only [Descriptor.nameWith]
      exact (onlyErrors_objectNameWith fun part listed => parts part listed exact).bind fun _ _ => .ok _
    | union members =>
      simp only [Descriptor.nameWith]
      exact onlyErrors_membersNameWith fun member listed => parts member listed exact
    | intersection members =>
      simp only [Descriptor.nameWith]
      exact (onlyErrors_membersNameWith fun member listed => parts member listed false).bind
        fun _ _ => .ok _
    | reference target arguments =>
      simp only [Descriptor.nameWith]
      refine OnlyErrors.bind ?_ fun _ _ => .ok _
      obtain ⟨definition, known, enough⟩ := complete.sound.references type target arguments found
      simp only [referenceNameWith, known]
      split
      · exact .ok _
      · refine (OnlyErrors.mapM fun argument listed => ?_).bind fun _ _ => .ok _
        obtain ⟨errors, results⟩ := onlyErrors_allArguments complete.sound.defaults
          (fun other among => reads.child complete.sound.ordered found among) enough argument listed
        exact errors.bind fun part made => ih closed exact (results part made)
    | parameter id =>
      simp only [Descriptor.nameWith]
      obtain ⟨errors, results⟩ :=
        closed.resolveWithin complete.sound (reads.bound found) maxResolutionSteps
      refine errors.bind fun stands resolved => ?_
      obtain ⟨closed', reads'⟩ := results stands.1 stands.2 resolved
      exact ih closed' exact reads'
    | indexAccess whole key =>
      simp only [Descriptor.nameWith]
      exact (parts whole (by simp [Descriptor.children]) false).bind fun _ _ =>
        (parts key (by simp [Descriptor.children]) false).bind fun _ _ => .ok _
    | keyof operand =>
      simp only [Descriptor.nameWith]
      exact (parts operand (by simp [Descriptor.children]) false).bind fun _ _ => .ok _

end

namespace Context.Fits

theorem nameOf (fits : ctx.Fits full type) (depth : Nat) :
    OnlyErrors (Allowed full) (ctx.nameOf depth type) :=
  onlyErrors_typeNameWithin fits.complete depth fits.closed ctx.exact fits.reads

end Context.Fits

/-! ## Keys -/

theorem onlyErrors_describe (depth : Nat) (ctx : Context) (type : TypeId) :
    OnlyErrors (Allowed full) (ctx.describe depth type) := by
  unfold Context.describe
  split
  · exact .ok _
  · exact .error ⟨nofun, fun _ => nofun⟩
  · exact .ok _

theorem onlyErrors_gatherKeys {keysOf : TypeId → Except CompileError KeySet} {types : List TypeId}
    (h : ∀ type ∈ types, OnlyErrors (Allowed full) (keysOf type)) (known : List String) :
    OnlyErrors (Allowed full) (gatherKeys keysOf known types) := by
  induction types generalizing known with
  | nil => exact .ok _
  | cons type rest ih =>
    unfold gatherKeys
    refine (h type List.mem_cons_self).bind fun found _ => ?_
    cases found with
    | none => exact .ok _
    | some keys => exact ih (fun other listed => h other (List.mem_cons_of_mem _ listed)) _

theorem isAllowed_kind (type : TypeId) (descriptor : Descriptor) :
    Allowed full (.unsupportedType type descriptor.kindName) ∧
      Allowed full (.unsupportedType type (descriptor.kindName ++ " used as an index type")) := by
  refine ⟨⟨?_, fun _ => nofun⟩, ⟨?_, fun _ => nofun⟩⟩ <;>
    · cases descriptor with
      | keyword word => cases word <;> simp [CompileError.IsDangling, Descriptor.kindName, Keyword.text]
      | _ => simp [CompileError.IsDangling, Descriptor.kindName]

namespace Context.Fits

theorem collectKeysWithin (fits : ctx.Fits full type) (depth steps : Nat) :
    OnlyErrors (Allowed full) (ShapeCheck.collectKeysWithin depth steps ctx type) := by
  induction steps generalizing ctx type with
  | zero =>
    exact (onlyErrors_describe depth ctx type).bind fun name _ =>
      .error (CompileError.isAllowed_tooDeep _ _)
  | succ steps ih =>
    obtain ⟨descriptor, found⟩ := fits.exists_lookup?
    simp only [ShapeCheck.collectKeysWithin, Arena.lookup, found]
    simp only [Bind.bind, Except.bind]
    split
    · exact .ok _
    · exact onlyErrors_gatherKeys (fun member listed => ih (fits.child found listed)) []
    · exact onlyErrors_gatherKeys (fun member listed => ih (fits.child found listed)) []
    · obtain ⟨definition, body, known, leads, isBody, given⟩ := fits.exists_target found
      rw [leads]
      refine (onlyErrors_enter ctx definition _).bind fun inside entered => ?_
      rw [isBody]
      refine onlyErrors_gatherKeys (fun part listed => ih ?_) []
      rcases List.mem_cons.1 listed with rfl | isBase
      · exact fits.body found known entered given
      · exact fits.base found known entered isBase
    · obtain ⟨errors, results⟩ := fits.resolve found
      exact errors.bind fun stands resolved => ih (results _ _ resolved)
    all_goals exact .ok _

theorem collectKeys (fits : ctx.Fits full type) (depth : Nat) :
    OnlyErrors (Allowed full) (ctx.collectKeys depth type) :=
  fits.collectKeysWithin depth maxResolutionSteps

theorem indexKeysWithin (fits : ctx.Fits full type) (depth steps : Nat) :
    OnlyErrors (Allowed full) (ShapeCheck.indexKeysWithin depth steps ctx type) := by
  induction steps generalizing ctx type with
  | zero => exact .error (CompileError.isAllowed_tooDeep _ _)
  | succ steps ih =>
    obtain ⟨descriptor, found⟩ := fits.exists_lookup?
    simp only [ShapeCheck.indexKeysWithin, Arena.lookup, found]
    simp only [Bind.bind, Except.bind]
    split
    · exact .ok _
    · exact .ok _
    · exact .ok _
    · exact .ok _
    · refine OnlyErrors.foldlM (fun keys member listed => ?_) []
      exact (ih (fits.child found listed)).bind fun _ _ => .ok _
    · obtain ⟨errors, results⟩ := fits.resolve found
      exact errors.bind fun stands resolved => ih (results _ _ resolved)
    · obtain ⟨definition, body, known, leads, isBody, given⟩ := fits.exists_target found
      simp only [leads, isBody]
      exact (onlyErrors_enter ctx definition _).bind fun inside entered =>
        ih (fits.body found known entered given)
    · refine ((fits.child found (by simp [Descriptor.children])).collectKeys depth).bind fun keys? _ => ?_
      split <;> exact .ok _
    · exact .error (isAllowed_kind type _).2

theorem indexKeys (fits : ctx.Fits full type) (depth : Nat) :
    OnlyErrors (Allowed full) (ctx.indexKeys depth type) :=
  fits.indexKeysWithin depth maxResolutionSteps

end Context.Fits

end ShapeCheck
