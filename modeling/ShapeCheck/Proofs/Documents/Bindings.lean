import ShapeCheck.Compile.Keys
import ShapeCheck.Proofs.Documents.Arenas
import ShapeCheck.Proofs.Failing
import ShapeCheck.Proofs.Instantiation.Frames

set_option autoImplicit false

/-! # Substitutions that can be read

A type can be read with a substitution if its handle is there and, with `full`, every parameter that it
leaves open is bound. What a binding stands for has to be readable in turn, where it was written
(`Substitution.IsClosed`). Parameters that would stand for themselves are left out of an
instantiation, but then they are bound further out.

Main facts: `Substitution.IsClosed.enter` (references lead from closed substitutions to closed ones, and
bind the parameters of all that is inherited) and `Substitution.IsClosed.resolveWithin`.
-/

namespace ShapeCheck

variable {full : Prop} {arena : Arena}

/-! ## Errors -/

namespace CompileError

/-- The error says that something is not there, or that a base is no reference. -/
def IsDangling : CompileError → Prop
  | missingBody _ => True
  | unsupportedType _ description =>
    description = "unknown type id" ∨ description = "reference to an unknown definition" ∨
      description = "base that is not a type reference"
  | _ => False

/-- The error says that a parameter stands for nothing. -/
def IsUnbound : CompileError → Prop
  | unboundParameter _ => True
  | _ => False

/-- The error is none about something that is not there. -/
def IsAllowed (full : Prop) (e : CompileError) : Prop := ¬ e.IsDangling ∧ (full → ¬ e.IsUnbound)

theorem isAllowed_tooDeep (name : String) (limit : Nat) :
    (instantiationTooDeep name limit).IsAllowed full :=
  ⟨nofun, fun _ => nofun⟩

/-- The descriptions of what is not there start with other letters. -/
theorem isAllowed_unsupported {type : TypeId} {description : String} {c : Char}
    (start : description.toList.head? = some c) (other : c ∉ ['u', 'r', 'b']) :
    (unsupportedType type description).IsAllowed full := by
  refine ⟨fun dangling => other ?_, fun _ => nofun⟩
  have letters : description.toList.head? ∈ [some 'u', some 'r', some 'b'] := by
    rcases dangling with rfl | rfl | rfl <;> decide
  rw [start] at letters
  simpa using letters

end CompileError

/-! ## Types that can be read -/

namespace Substitution

/-- The type is there, and with `full` the parameters that it leaves open are bound. -/
def Reads (full : Prop) (arena : Arena) (s : Substitution) (type : TypeId) : Prop :=
  type.index < arena.descriptors.size ∧
    (full → ∀ id ∈ (arena.treeOf type).parameters, (s.find? id).isSome)

variable {s outer : Substitution} {inner : Instantiation} {type : TypeId}

theorem isSome_find?_cons {id : ParameterId} :
    (find? (inner :: outer) id).isSome ↔ (inner.lookup id).isSome ∨ (outer.find? id).isSome := by
  rw [find?]
  split
  · rename_i bound
    simp [bound]
  · rename_i bound
    simp [bound]
  · rename_i free
    simp [free]

theorem Reads.mono (reads : Reads full arena s type) {s' : Substitution}
    (more : ∀ id, (s.find? id).isSome → (s'.find? id).isSome) : Reads full arena s' type :=
  ⟨reads.1, fun given id inside => more id (reads.2 given id inside)⟩

theorem Reads.child (reads : Reads full arena s type) (ordered : arena.IsOrdered)
    {descriptor : Descriptor} (found : arena.lookup? type = some descriptor) {child : TypeId}
    (inside : child ∈ descriptor.children) : Reads full arena s child := by
  have written : arena.WrittenIn (arena.treeOf type).parameters child :=
    Arena.WrittenIn.child ordered ⟨reads.1, fun _ here => here⟩ found inside
  exact ⟨written.1, fun given id here => reads.2 given id (written.2 id here)⟩

/-- A parameter that can be read is bound. -/
theorem Reads.bound (reads : Reads full arena s type) {id : ParameterId}
    (found : arena.lookup? type = some (.parameter id)) (given : full) : (s.find? id).isSome := by
  refine reads.2 given id ?_
  rw [Arena.treeOf_parameter found, TypeTree.parameters]
  exact List.mem_singleton_self id

theorem reads_of_writtenIn {parameters : List ParameterId} (written : arena.WrittenIn parameters type)
    (bound : full → ∀ id ∈ parameters, (s.find? id).isSome) : Reads full arena s type :=
  ⟨written.1, fun given id inside => bound given id (written.2 id inside)⟩

/-! ## Closed substitutions -/

end Substitution

/-- What a binding is read with. -/
def BindingScope.around (inner : Instantiation) (outer : Substitution) : BindingScope → Substitution
  | .outer => outer
  | .same => inner :: outer

namespace Instantiation

/-- The bindings of an instantiation can be read where they were written, and none stands for its own
parameter. -/
def IsClosed (full : Prop) (arena : Arena) (outer : Substitution) (inner : Instantiation) : Prop :=
  ∀ entry ∈ inner, arena.lookup? entry.2.type ≠ some (.parameter entry.1) ∧
    Substitution.Reads full arena (entry.2.scope.around inner outer) entry.2.type

/-- The second instantiation binds what the first one binds. -/
def Grows (inner inner' : Instantiation) : Prop :=
  ∀ id, (inner.lookup id).isSome → (inner'.lookup id).isSome

theorem Grows.trans {inner inner' inner'' : Instantiation} (h : inner.Grows inner')
    (h' : inner'.Grows inner'') : inner.Grows inner'' :=
  fun id bound => h' id (h id bound)

variable {outer : Substitution} {inner inner' : Instantiation} {type : TypeId} {scope : BindingScope}
  {parameters : List ParameterId} {arguments : List TypeId}

theorem Grows.around (grows : inner.Grows inner') (scope : BindingScope)
    (reads : Substitution.Reads full arena (scope.around inner outer) type) :
    Substitution.Reads full arena (scope.around inner' outer) type := by
  cases scope with
  | outer => exact reads
  | same =>
    refine reads.mono fun id bound => ?_
    rw [BindingScope.around, Substitution.isSome_find?_cons] at bound ⊢
    exact bound.imp_left (grows id)

theorem grows_bind (inner : Instantiation) (parameter : ParameterId) (binding : Binding) :
    inner.Grows (inner.bind arena parameter binding) := by
  intro id bound
  unfold bind
  split
  · exact bound
  · split
    · exact bound
    · rw [List.lookup_append, Option.isSome_or, bound]
      rfl

/-- After a parameter has been given something to stand for, it is bound. -/
theorem isSome_find?_bind {parameter : ParameterId}
    (reads : Substitution.Reads full arena (scope.around inner outer) type) (given : full) :
    (Substitution.find? (inner.bind arena parameter ⟨type, scope⟩ :: outer) parameter).isSome := by
  rw [Substitution.isSome_find?_cons]
  unfold bind
  split
  · -- a parameter that would stand for itself is bound around the binding already
    rename_i itself
    have bound := reads.bound itself given
    cases scope with
    | outer => exact .inr bound
    | same => rwa [BindingScope.around, Substitution.isSome_find?_cons] at bound
  · split
    · rename_i known
      exact .inl known
    · rename_i free
      refine .inl ?_
      rw [List.lookup_append, Option.isSome_or]
      simp

theorem IsClosed.bind (closed : inner.IsClosed full arena outer) (parameter : ParameterId)
    (reads : Substitution.Reads full arena (scope.around inner outer) type) :
    (inner.bind arena parameter ⟨type, scope⟩).IsClosed full arena outer := by
  have grows : inner.Grows (inner.bind arena parameter ⟨type, scope⟩) := grows_bind inner parameter _
  intro entry inside
  have kept (listed : entry ∈ inner) := (closed entry listed).imp_right (grows.around entry.2.scope)
  by_cases itself : arena.lookup? type = some (.parameter parameter)
  · rw [Instantiation.bind, if_pos itself] at inside
    exact kept inside
  · by_cases known : (inner.lookup parameter).isSome
    · rw [Instantiation.bind, if_neg itself, if_pos known] at inside
      exact kept inside
    · rw [Instantiation.bind, if_neg itself, if_neg known] at inside
      rcases List.mem_append.1 inside with listed | new
      · exact kept listed
      · obtain rfl := List.mem_singleton.1 new
        exact ⟨itself, grows.around scope reads⟩

/-- Binding parameters to arguments that can be read. -/
theorem IsClosed.bindAll (closed : inner.IsClosed full arena outer)
    (reads : ∀ argument ∈ arguments,
      Substitution.Reads full arena (scope.around inner outer) argument)
    (defaults : ∀ id type, arena.default? id = some type → type.index < arena.descriptors.size)
    (enough : full → parameters.length ≤ arguments.length) :
    (inner.bindAll arena scope parameters arguments).IsClosed full arena outer ∧
      inner.Grows (inner.bindAll arena scope parameters arguments) ∧
        (full → ∀ id ∈ parameters,
          (Substitution.find? (inner.bindAll arena scope parameters arguments :: outer) id).isSome) := by
  induction parameters generalizing inner arguments with
  | nil => exact ⟨closed, fun _ bound => bound, fun _ => nofun⟩
  | cons parameter rest ih =>
    cases arguments with
    | cons argument arguments =>
      have here := reads argument List.mem_cons_self
      have grows : inner.Grows (inner.bind arena parameter ⟨argument, scope⟩) :=
        grows_bind inner parameter _
      obtain ⟨closed', grows', bound⟩ := ih (closed.bind parameter here)
        (fun other inside => grows.around scope (reads other (List.mem_cons_of_mem _ inside)))
        fun given => Nat.le_of_succ_le_succ (enough given)
      refine ⟨closed', grows.trans grows', fun given id inside => ?_⟩
      rcases List.mem_cons.1 inside with rfl | inside
      · have first : (Substitution.find? (inner.bind arena id ⟨argument, scope⟩ :: outer) id).isSome :=
          isSome_find?_bind here given
        rw [Substitution.isSome_find?_cons] at first ⊢
        exact first.imp_left (grows' id)
      · exact bound given id inside
    | nil =>
      -- with all arguments passed there is no need for defaults
      have partly (given : full) : False := Nat.not_succ_le_zero _ (enough given)
      have none (inner : Instantiation) : ∀ argument ∈ ([] : List TypeId),
          Substitution.Reads full arena (scope.around inner outer) argument := nofun
      unfold Instantiation.bindAll
      split
      · rename_i type isDefault
        have there : Substitution.Reads full arena (BindingScope.same.around inner outer) type :=
          ⟨defaults parameter type isDefault, fun given => absurd given partly⟩
        have grows : inner.Grows (inner.bind arena parameter ⟨type, .same⟩) :=
          grows_bind inner parameter _
        obtain ⟨closed', grows', -⟩ := ih (closed.bind parameter there) (none _)
          fun given => absurd given partly
        exact ⟨closed', grows.trans grows', fun given => absurd given partly⟩
      · obtain ⟨closed', grows', -⟩ := ih closed (none inner)
          fun given => absurd given partly
        exact ⟨closed', grows', fun given => absurd given partly⟩

/-- What is inherited is bound as well, whatever the bases are. -/
theorem IsClosed.bindBases (sound : arena.IsSound full) {steps : Nat} {definition : Definition}
    {id : DefinitionId} (known : arena.definition? id = some definition)
    (closed : inner.IsClosed full arena outer)
    (bound : full → ∀ id ∈ definition.parameters, (Substitution.find? (inner :: outer) id).isSome)
    {made : Instantiation} (h : bindBases arena steps inner definition = .ok made) :
    made.IsClosed full arena outer ∧ inner.Grows made ∧
      (full → ∀ application ∈ arena.inheritedWithin steps definition,
        ∀ id ∈ application.definition.parameters,
          (Substitution.find? (made :: outer) id).isSome) := by
  induction steps generalizing inner made definition id with
  | zero => cases h
  | succ steps ih =>
    have bases := sound.bases id definition known
    rw [Instantiation.bindBases] at h
    rw [Arena.inheritedWithin]
    generalize definition.bases = list at h bases
    induction list generalizing inner with
    | nil =>
      cases h
      exact ⟨closed, fun _ bound => bound, fun _ => by rintro _ ⟨⟩⟩
    | cons base rest onwards =>
      obtain ⟨written, target, arguments, found⟩ := bases base List.mem_cons_self
      obtain ⟨inherited, there, enough⟩ := sound.references base target arguments found
      rw [List.foldlM_cons] at h
      obtain ⟨middle, first, h⟩ := bind_eq_ok.1 h
      simp only [found, there] at first
      have reads (argument : TypeId) (inside : argument ∈ arguments) :
          Substitution.Reads full arena (BindingScope.same.around inner outer) argument :=
        Substitution.reads_of_writtenIn (written.child sound.ordered found inside) bound
      obtain ⟨closed₁, grows₁, bound₁⟩ := closed.bindAll reads sound.defaults enough
      obtain ⟨closed₂, grows₂, bound₂⟩ := ih there closed₁ bound₁ first
      have still (given : full) (id : ParameterId) (inside : id ∈ definition.parameters) :
          (Substitution.find? (middle :: outer) id).isSome := by
        have before := bound given id inside
        rw [Substitution.isSome_find?_cons] at before ⊢
        exact before.imp_left fun here => grows₂ id (grows₁ id here)
      obtain ⟨closed₃, grows₃, bound₃⟩ := onwards closed₂ still h
        fun other inside => bases other (List.mem_cons_of_mem _ inside)
      refine ⟨closed₃, (grows₁.trans grows₂).trans grows₃, fun given application listed id inside => ?_⟩
      have later {id : ParameterId} (before : (Substitution.find? (middle :: outer) id).isSome) :
          (Substitution.find? (made :: outer) id).isSome := by
        rw [Substitution.isSome_find?_cons] at before ⊢
        exact before.imp_left (grows₃ id)
      rw [List.flatMap_cons, List.mem_append] at listed
      rcases listed with here | there'
      · simp only [found, there] at here
        rcases List.mem_cons.1 here with rfl | below
        · have before := bound₁ given id inside
          rw [Substitution.isSome_find?_cons] at before
          exact later (Substitution.isSome_find?_cons.2 (before.imp_left (grows₂ id)))
        · exact later (bound₂ given application below id inside)
      · exact bound₃ given application there' id inside

theorem onlyErrors_bindBases (inner : Instantiation) (steps : Nat) (definition : Definition) :
    OnlyErrors (CompileError.IsAllowed full) (bindBases arena steps inner definition) := by
  induction steps generalizing inner definition with
  | zero => exact .error (CompileError.isAllowed_tooDeep _ _)
  | succ steps ih =>
    unfold Instantiation.bindBases
    apply OnlyErrors.foldlM
    intro bindings base _
    split
    · split
      · exact ih _ _
      · exact .ok _
    · exact .ok _

end Instantiation

/-! ## Resolution and references -/

namespace Substitution

/-- Every binding of the substitution can be read where it was written. -/
def IsClosed (full : Prop) (arena : Arena) : Substitution → Prop
  | [] => True
  | inner :: outer => inner.IsClosed full arena outer ∧ IsClosed full arena outer

variable {s visible inside : Substitution} {id : ParameterId} {type target : TypeId}

/-- What a parameter is bound to can be read, and is not the parameter itself. -/
theorem IsClosed.find? (closed : s.IsClosed full arena) (found : s.find? id = some (type, visible)) :
    visible.IsClosed full arena ∧ visible.Reads full arena type ∧
      arena.lookup? type ≠ some (.parameter id) := by
  induction s with
  | nil => cases found
  | cons inner outer ih =>
    have mem_of_lookup {binding : Binding} (h : inner.lookup id = some binding) :
        (id, binding) ∈ inner := by
      obtain ⟨before, after, split, -⟩ := List.lookup_eq_some_iff.1 h
      simp [split]
    unfold Substitution.find? at found
    split at found
    · rename_i bound
      cases found
      obtain ⟨other, reads⟩ := closed.1 _ (mem_of_lookup bound)
      exact ⟨closed.2, reads, other⟩
    · rename_i bound
      cases found
      obtain ⟨other, reads⟩ := closed.1 _ (mem_of_lookup bound)
      exact ⟨closed, reads, other⟩
    · exact ih closed.2 found

/-- Following parameters leads to a type that can be read, and stops only where the steps run out. -/
theorem IsClosed.resolveWithin (sound : arena.IsSound full) (closed : s.IsClosed full arena)
    (bound : full → (s.find? id).isSome) (steps : Nat) :
    OnlyErrors (CompileError.IsAllowed full) (s.resolveWithin arena steps id) ∧
      ∀ type visible, s.resolveWithin arena steps id = .ok (type, visible) →
        visible.IsClosed full arena ∧ visible.Reads full arena type := by
  induction steps generalizing s id with
  | zero => exact ⟨.error (CompileError.isAllowed_tooDeep _ _), by rintro _ _ ⟨⟩⟩
  | succ steps ih =>
    -- one step leads to a type that can be read, and never to the same parameter if all are bound
    have stepped : OnlyErrors (CompileError.IsAllowed full) (s.step arena id) ∧
        ∀ type visible, s.step arena id = .ok (type, visible) →
          visible.IsClosed full arena ∧ visible.Reads full arena type ∧
            (full → arena.lookup? type ≠ some (.parameter id)) := by
      unfold step
      cases found : s.find? id with
      | some binding =>
        refine ⟨.ok _, ?_⟩
        rintro type visible ⟨⟩
        obtain ⟨closed', reads, other⟩ := closed.find? found
        exact ⟨closed', reads, fun _ => other⟩
      | none =>
        have partly (given : full) : False := by simpa [found] using bound given
        cases isDefault : arena.default? id with
        | some type =>
          refine ⟨.ok _, ?_⟩
          rintro _ _ ⟨⟩
          exact ⟨closed, ⟨sound.defaults id type isDefault, fun given => absurd given partly⟩,
            fun given => absurd given partly⟩
        | none => exact ⟨.error ⟨by rintro ⟨⟩, fun given => absurd given partly⟩, by rintro _ _ ⟨⟩⟩
    unfold Substitution.resolveWithin
    cases made : s.step arena id with
    | error e => exact ⟨.error (stepped.1 e made), by rintro _ _ ⟨⟩⟩
    | ok found =>
      obtain ⟨type, visible⟩ := found
      obtain ⟨closed', reads, other⟩ := stepped.2 type visible made
      simp only [Bind.bind, Except.bind]
      split
      · rename_i next leads
        split
        · rename_i same
          have partly (given : full) : False := other given (same ▸ leads)
          exact ⟨.error ⟨by rintro ⟨⟩, fun given => absurd given partly⟩, by rintro _ _ ⟨⟩⟩
        · exact ih closed' (reads.bound leads)
      · refine ⟨.ok _, ?_⟩
        rintro _ _ ⟨⟩
        exact ⟨closed', reads⟩

variable {definition : Definition} {arguments : List TypeId} {reference : TypeId}
  {target : DefinitionId}

theorem onlyErrors_enter (s : Substitution) (definition : Definition) (arguments : List TypeId) :
    OnlyErrors (CompileError.IsAllowed full) (s.enter arena definition arguments) := by
  unfold enter
  refine (Instantiation.onlyErrors_bindBases _ _ _).bind fun made _ => ?_
  split
  · exact .ok _
  · split
    · exact .error (CompileError.isAllowed_tooDeep _ _)
    · exact .ok _

/-- A reference that can be read leads to a closed substitution, which binds the parameters of its
definition and of all that this one inherits. -/
theorem IsClosed.enter (sound : arena.IsSound full) (closed : s.IsClosed full arena)
    (reads : s.Reads full arena reference)
    (found : arena.lookup? reference = some (.reference target arguments))
    (known : arena.definition? target = some definition)
    (entered : s.enter arena definition arguments = .ok inside) :
    inside.IsClosed full arena ∧
      (full → ∀ id ∈ arena.boundParameters definition, (inside.find? id).isSome) := by
  obtain ⟨made, bound, rfl⟩ := enter_eq_ok entered
  obtain ⟨other, there, enough⟩ := sound.references reference target arguments found
  obtain rfl := Option.some.inj (known.symm.trans there)
  have passed (argument : TypeId) (inside : argument ∈ arguments) :
      Reads full arena (BindingScope.outer.around [] s) argument := reads.child sound.ordered found inside
  have nothing : Instantiation.IsClosed full arena s [] := nofun
  obtain ⟨closed₁, -, bound₁⟩ := nothing.bindAll passed sound.defaults enough
  obtain ⟨closed₂, grows, bound₂⟩ := closed₁.bindBases sound known bound₁ bound
  have covered (given : full) (id : ParameterId) (listed : id ∈ arena.boundParameters definition) :
      (Substitution.find? (made :: s) id).isSome := by
    rcases List.mem_append.1 listed with own | inherited
    · have before := bound₁ given id own
      rw [isSome_find?_cons] at before ⊢
      exact before.imp_left (grows id)
    · obtain ⟨application, listed, among⟩ := List.mem_flatMap.1 inherited
      exact bound₂ given application listed id among
  cases made with
  | nil => exact ⟨closed, covered⟩
  | cons first rest => exact ⟨⟨closed₂, closed⟩, covered⟩

end Substitution

/-! ## Inherited members -/

theorem mem_children_inherit {shape inherited : ObjectShape} {type : TypeId}
    (inside : type ∈ (Descriptor.object (shape.inherit inherited)).children) :
    type ∈ (Descriptor.object shape).children ∨ type ∈ (Descriptor.object inherited).children := by
  have merged (known properties : List Property) : ∀ property ∈ properties.foldl (fun known property =>
      if known.any (·.name == property.name) then known else known ++ [property]) known,
        property ∈ known ∨ property ∈ properties := by
    induction properties generalizing known with
    | nil => exact fun property here => .inl here
    | cons first rest ih =>
      intro property here
      rcases ih _ property here with added | later
      · dsimp only at added
        split at added
        · exact .inl added
        · rcases List.mem_append.1 added with before | new
          · exact .inl before
          · exact .inr (List.mem_singleton.1 new ▸ List.mem_cons_self)
      · exact .inr (List.mem_cons_of_mem _ later)
  rcases List.mem_append.1 inside with member | index
  · obtain ⟨property, listed, typed⟩ := List.mem_filterMap.1 member
    rcases merged _ _ property listed with own | other
    · exact .inl (List.mem_append_left _ (List.mem_filterMap.2 ⟨property, own, typed⟩))
    · exact .inr (List.mem_append_left _ (List.mem_filterMap.2 ⟨property, other, typed⟩))
  · cases own : shape.index with
    | some signature =>
      refine .inl (List.mem_append_right _ ?_)
      simpa [ObjectShape.inherit, own] using index
    | none =>
      refine .inr (List.mem_append_right _ ?_)
      simpa [ObjectShape.inherit, own] using index

/-- The parameters of a definition and of all that it inherits, for a number of steps. -/
def Arena.parametersWithin (arena : Arena) (steps : Nat) (definition : Definition) :
    List ParameterId :=
  definition.parameters ++ (arena.inheritedWithin steps definition).flatMap (·.definition.parameters)

/-- What a base leads to has its parameters among those of the definition. -/
theorem parametersWithin_subset {steps : Nat} {definition inherited : Definition} {base : TypeId}
    {target : DefinitionId} {arguments : List TypeId} (inside : base ∈ definition.bases)
    (found : arena.lookup? base = some (.reference target arguments))
    (known : arena.definition? target = some inherited) :
    arena.parametersWithin steps inherited ⊆ arena.parametersWithin (steps + 1) definition := by
  have listed : ∀ application ∈ (⟨inherited, arguments⟩ :: arena.inheritedWithin steps inherited),
      application ∈ arena.inheritedWithin (steps + 1) definition := by
    intro application here
    refine List.mem_flatMap.2 ⟨base, inside, ?_⟩
    simp only [found, known]
    exact here
  intro id here
  refine List.mem_append_right _ (List.mem_flatMap.2 ?_)
  rcases List.mem_append.1 here with own | below
  · exact ⟨⟨inherited, arguments⟩, listed _ List.mem_cons_self, own⟩
  · obtain ⟨application, among, below⟩ := List.mem_flatMap.1 below
    exact ⟨application, listed _ (List.mem_cons_of_mem _ among), below⟩

/-- The members of a definition are written in its own parameters and those of what it inherits. They
can be gathered unless there are too many steps or a body is no object. -/
theorem writtenIn_mergedShapeWithin (sound : arena.IsSound full)
    (bodies : ∀ id definition, arena.definition? id = some definition → definition.body.isSome)
    (steps : Nat) {id : DefinitionId} {definition : Definition}
    (known : arena.definition? id = some definition) :
    OnlyErrors (CompileError.IsAllowed full) (mergedShapeWithin arena steps definition) ∧
      ∀ shape, mergedShapeWithin arena steps definition = .ok shape →
        ∀ type ∈ (Descriptor.object shape).children,
          arena.WrittenIn (arena.parametersWithin steps definition) type := by
  induction steps generalizing id definition with
  | zero => exact ⟨.error (CompileError.isAllowed_tooDeep _ _), nofun⟩
  | succ steps ih =>
    obtain ⟨body, given⟩ := Option.isSome_iff_exists.1 (bodies id definition known)
    have isBody : definition.requireBody = .ok body := by simp [Definition.requireBody, given]
    have bases := sound.bases id definition known
    have subset {base : TypeId} {target : DefinitionId} {arguments : List TypeId}
        {inherited : Definition} := @parametersWithin_subset arena steps definition inherited base target
          arguments
    unfold mergedShapeWithin
    rw [isBody]
    simp only [Bind.bind, Except.bind]
    split
    · rename_i own found
      have written : ∀ type ∈ (Descriptor.object own).children,
          arena.WrittenIn (arena.parametersWithin (steps + 1) definition) type := fun type inside =>
        ((sound.bodies id definition known body given).child sound.ordered found inside).mono
          fun _ here => List.mem_append_left _ here
      clear found
      generalize arena.parametersWithin (steps + 1) definition = parameters at written subset ⊢
      generalize definition.bases = list at bases subset ⊢
      induction list generalizing own with
      | nil =>
        refine ⟨.ok own, ?_⟩
        rintro _ ⟨⟩
        exact written
      | cons base rest onwards =>
        obtain ⟨-, target, arguments, leads⟩ := bases base List.mem_cons_self
        obtain ⟨inherited, there, -⟩ := sound.references base target arguments leads
        have isTarget : arena.target base target = .ok inherited := by simp [Arena.target, there]
        obtain ⟨errors, members⟩ := ih there
        rw [List.foldlM_cons]
        simp only [leads, isTarget]
        cases made : mergedShapeWithin arena steps inherited with
        | error e => exact ⟨.error (errors e made), nofun⟩
        | ok shape =>
          refine onwards _ (fun type inside => ?_)
            (fun other inside => bases other (List.mem_cons_of_mem _ inside))
            fun inside => subset (List.mem_cons_of_mem _ inside)
          rcases mem_children_inherit inside with mine | others
          · exact written type mine
          · exact (members shape made type others).mono (subset List.mem_cons_self leads there)
    · refine ⟨.error (CompileError.isAllowed_unsupported (c := '`') ?_ (by decide)), nofun⟩
      simp [String.toList_append]

end ShapeCheck
