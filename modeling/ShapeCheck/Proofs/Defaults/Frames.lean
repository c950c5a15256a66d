import ShapeCheck.Proofs.Documents.Bindings

set_option autoImplicit false

/-! # What defaults are bound to

A reference may leave out arguments whose parameters have defaults. The defaults are bound in the
instantiation of the reference itself, so they have to be written in parameters that it binds, or that are
known around it. Where every reference is supplied in this way (`Arena.IsSupplied`), each parameter that
can be read inside of a reference is bound there or known outside (`Instantiation.Covers`), and every
binding is written in parameters that are known where it is read (`Instantiation.IsWithin`).

Main fact: `Instantiation.within_ofArguments`.
-/

namespace ShapeCheck

variable {arena : Arena}

/-- Parameters for which a reference has no argument have defaults, written in parameters that the
reference mentions itself, such as none at all. A default is written in the parameters before its own. -/
structure Arena.IsSupplied (arena : Arena) : Prop where
  given : ∀ type target arguments definition,
    arena.lookup? type = some (.reference target arguments) →
      arena.definition? target = some definition →
        ∀ id ∈ definition.parameters.drop arguments.length, ∃ default, arena.default? id = some default ∧
          arena.WrittenIn (arena.treeOf type).parameters default
  defaults : ∀ target definition, arena.definition? target = some definition →
    ∀ before id after, definition.parameters = before ++ id :: after →
      ∀ type, arena.default? id = some type → arena.WrittenIn before type

theorem Arena.IsSupplied.isSome_default? (supplied : arena.IsSupplied) {type : TypeId}
    {target : DefinitionId} {arguments : List TypeId} {definition : Definition}
    (found : arena.lookup? type = some (.reference target arguments))
    (known : arena.definition? target = some definition) :
    ∀ id ∈ definition.parameters.drop arguments.length, (arena.default? id).isSome := by
  intro id left
  obtain ⟨default, isDefault, -⟩ := supplied.given type target arguments definition found known id left
  rw [isDefault]
  rfl

/-- Of the parameters around an instantiation and those inside of it, the ones that are known where a
binding was written. -/
def BindingScope.parameters (around inside : List ParameterId) : BindingScope → List ParameterId
  | .outer => around
  | .same => inside

namespace Instantiation

variable {around inside : List ParameterId} {bindings : Instantiation} {scope : BindingScope}
  {type : TypeId} {id : ParameterId}

/-- Every binding is written in parameters that are known where it was written. -/
def IsWithin (arena : Arena) (around inside : List ParameterId) (bindings : Instantiation) : Prop :=
  ∀ entry ∈ bindings, arena.WrittenIn (entry.2.scope.parameters around inside) entry.2.type

/-- Every one of some parameters is bound, or known around the instantiation. -/
def Covers (bindings : Instantiation) (around ids : List ParameterId) : Prop :=
  ∀ id ∈ ids, (bindings.lookup id).isSome ∨ id ∈ around

theorem IsWithin.of_lookup (within : bindings.IsWithin arena around inside) {binding : Binding}
    (found : bindings.lookup id = some binding) :
    arena.WrittenIn (binding.scope.parameters around inside) binding.type := by
  obtain ⟨before, after, split, -⟩ := List.lookup_eq_some_iff.1 found
  exact within (id, binding) (by simp [split])

theorem Covers.grows {bindings' : Instantiation} {ids : List ParameterId}
    (covers : bindings.Covers around ids) (grows : bindings.Grows bindings') :
    bindings'.Covers around ids :=
  fun id listed => (covers id listed).imp_left (grows id)

theorem Covers.append {ids ids' : List ParameterId} (covers : bindings.Covers around ids)
    (covers' : bindings.Covers around ids') : bindings.Covers around (ids ++ ids') := by
  intro id listed
  rcases List.mem_append.1 listed with first | second
  · exact covers id first
  · exact covers' id second

/-! ## Single bindings -/

theorem IsWithin.bind (within : bindings.IsWithin arena around inside) (parameter : ParameterId)
    (written : arena.WrittenIn (scope.parameters around inside) type) :
    (bindings.bind arena parameter ⟨type, scope⟩).IsWithin arena around inside := by
  unfold Instantiation.bind
  split
  · exact within
  split
  · exact within
  · intro entry listed
    rcases List.mem_append.1 listed with before | new
    · exact within entry before
    · obtain rfl := List.mem_singleton.1 new
      exact written

/-- After a parameter has been given something to stand for, it is bound, unless it was to stand for
itself. -/
theorem covers_bind (itself : arena.lookup? type = some (.parameter id) →
      (bindings.lookup id).isSome ∨ id ∈ around) :
    ((bindings.bind arena id ⟨type, scope⟩).lookup id).isSome ∨ id ∈ around := by
  unfold bind
  split
  · rename_i same
    exact itself same
  split
  · rename_i known
    exact .inl known
  · left
    rw [List.lookup_append, Option.isSome_or]
    simp

/-! ## Several parameters -/

theorem grows_bindAll (bindings : Instantiation) (scope : BindingScope) (parameters : List ParameterId)
    (arguments : List TypeId) : bindings.Grows (bindings.bindAll arena scope parameters arguments) := by
  induction parameters generalizing bindings arguments with
  | nil => exact fun _ bound => bound
  | cons parameter rest ih =>
    cases arguments with
    | cons argument arguments => exact (grows_bind bindings parameter _).trans (ih _ arguments)
    | nil =>
      unfold bindAll
      split
      · exact (grows_bind bindings parameter _).trans (ih _ [])
      · exact ih _ []

/-- Binding parameters that follow others, to arguments and then to defaults. -/
theorem within_bindAll {earlier parameters : List ParameterId} {arguments : List TypeId}
    (within : bindings.IsWithin arena around inside) (covers : bindings.Covers around earlier)
    (written : ∀ argument ∈ arguments, arena.WrittenIn (scope.parameters around inside) argument)
    (itself : ∀ argument ∈ arguments, ∀ id, arena.lookup? argument = some (.parameter id) →
      (bindings.lookup id).isSome ∨ id ∈ around)
    (defaults : ∀ before id after, earlier ++ parameters = before ++ id :: after →
      ∀ type, arena.default? id = some type → arena.WrittenIn before type)
    (given : ∀ id ∈ parameters.drop arguments.length, (arena.default? id).isSome)
    (among : ∀ id ∈ earlier ++ parameters, id ∈ inside) :
    (bindings.bindAll arena scope parameters arguments).IsWithin arena around inside ∧
      (bindings.bindAll arena scope parameters arguments).Covers around (earlier ++ parameters) := by
  induction parameters generalizing bindings arguments earlier with
  | nil => exact ⟨within, by rwa [List.append_nil]⟩
  | cons parameter rest ih =>
    have regroup : earlier ++ parameter :: rest = (earlier ++ [parameter]) ++ rest := by simp
    cases arguments with
    | cons argument arguments =>
      have grows : bindings.Grows (bindings.bind arena parameter ⟨argument, scope⟩) :=
        grows_bind bindings parameter _
      have here : (bindings.bind arena parameter ⟨argument, scope⟩).Covers around [parameter] := by
        intro id listed
        obtain rfl := List.mem_singleton.1 listed
        exact covers_bind (itself argument List.mem_cons_self id)
      rw [regroup] at defaults among ⊢
      apply ih (within.bind parameter (written argument List.mem_cons_self))
        ((covers.grows grows).append here)
      · exact fun other listed => written other (List.mem_cons_of_mem _ listed)
      · intro other listed id leads
        exact (itself other (List.mem_cons_of_mem _ listed) id leads).imp_left (grows id)
      · exact defaults
      · exact given
      · exact among
    | nil =>
      obtain ⟨type, isDefault⟩ := Option.isSome_iff_exists.1 (given parameter List.mem_cons_self)
      have early : arena.WrittenIn earlier type := defaults earlier parameter rest rfl type isDefault
      have grows : bindings.Grows (bindings.bind arena parameter ⟨type, .same⟩) :=
        grows_bind bindings parameter _
      have here : (bindings.bind arena parameter ⟨type, .same⟩).Covers around [parameter] := by
        intro id listed
        obtain rfl := List.mem_singleton.1 listed
        -- a default that is its own parameter would be written in the parameters before it
        exact covers_bind fun leads => covers id (early.mem_of_parameter leads)
      have known : arena.WrittenIn (BindingScope.same.parameters around inside) type :=
        early.mono fun id listed => among id (List.mem_append_left _ listed)
      rw [regroup] at defaults among ⊢
      rw [bindAll, isDefault]
      apply ih (within.bind parameter known) ((covers.grows grows).append here)
      · rintro _ ⟨⟩
      · rintro _ ⟨⟩
      · exact defaults
      · intro id listed
        exact given id (List.mem_cons_of_mem _ (by simpa using listed))
      · exact among

/-! ## Bases -/

/-- Adds what one base binds, and its bases in turn. -/
def bindBase (arena : Arena) (steps : Nat) (bindings : Instantiation) (base : TypeId) :
    Except CompileError Instantiation :=
  match arena.lookup? base with
  | some (.reference target arguments) =>
    match arena.definition? target with
    | some inherited =>
      bindBases arena steps (bindings.bindAll arena .same inherited.parameters arguments) inherited
    | none => .ok bindings
  | _ => .ok bindings

/-- What bases bind is written in parameters that are bound before, and covers all that is inherited. -/
theorem within_bindBases {full : Prop} (sound : arena.IsSound full) (supplied : arena.IsSupplied)
    {steps : Nat} {definition : Definition} {target : DefinitionId}
    (known : arena.definition? target = some definition)
    (within : bindings.IsWithin arena around inside)
    (covers : bindings.Covers around definition.parameters)
    (among : ∀ id ∈ arena.parametersWithin steps definition, id ∈ inside) {made : Instantiation}
    (h : bindBases arena steps bindings definition = .ok made) :
    made.IsWithin arena around inside ∧ bindings.Grows made ∧
      made.Covers around (arena.parametersWithin steps definition) := by
  induction steps generalizing bindings made definition target with
  | zero => cases h
  | succ steps ih =>
    have bases := sound.bases target definition known
    -- on the bases that are left: what the earlier ones inherit is covered already
    suffices onwards : ∀ (left : List TypeId) (bindings : Instantiation),
        (∀ base ∈ left, base ∈ definition.bases) → bindings.IsWithin arena around inside →
          bindings.Covers around definition.parameters →
            left.foldlM (bindBase arena steps) bindings = .ok made →
              made.IsWithin arena around inside ∧ bindings.Grows made ∧
                ∀ base ∈ left, ∀ target arguments inherited,
                  arena.lookup? base = some (.reference target arguments) →
                    arena.definition? target = some inherited →
                      made.Covers around (arena.parametersWithin steps inherited) by
      rw [bindBases] at h
      obtain ⟨within', grows, below⟩ := onwards definition.bases bindings (fun _ listed => listed) within
        covers h
      refine ⟨within', grows, (covers.grows grows).append ?_⟩
      intro id listed
      obtain ⟨application, inherits, own⟩ := List.mem_flatMap.1 listed
      obtain ⟨base, isBase, inherits⟩ := List.mem_flatMap.1 inherits
      obtain ⟨-, target', arguments, found⟩ := bases base isBase
      obtain ⟨inherited, there, -⟩ := sound.references base target' arguments found
      simp only [found, there] at inherits
      apply below base isBase target' arguments inherited found there
      rcases List.mem_cons.1 inherits with rfl | further
      · exact List.mem_append_left _ own
      · exact List.mem_append_right _ (List.mem_flatMap.2 ⟨application, further, own⟩)
    clear h within covers bindings
    intro left
    induction left with
    | nil =>
      intro bindings _ within _ folded
      cases folded
      exact ⟨within, fun _ bound => bound, by rintro _ ⟨⟩⟩
    | cons base rest others =>
      intro bindings listed within covers folded
      have isBase : base ∈ definition.bases := listed base List.mem_cons_self
      obtain ⟨written, target', arguments, found⟩ := bases base isBase
      obtain ⟨inherited, there, -⟩ := sound.references base target' arguments found
      rw [List.foldlM_cons] at folded
      obtain ⟨middle, first, folded⟩ := bind_eq_ok.1 folded
      simp only [bindBase, found, there] at first
      have subset : ∀ id ∈ arena.parametersWithin steps inherited, id ∈ inside :=
        fun id own => among id (parametersWithin_subset isBase found there own)
      have own (argument : TypeId) (listed : argument ∈ arguments) :
          arena.WrittenIn definition.parameters argument := written.child sound.ordered found listed
      have nothing : bindings.Covers around [] := by rintro _ ⟨⟩
      obtain ⟨within₁, covers₁⟩ : (bindings.bindAll arena .same inherited.parameters arguments).IsWithin
          arena around inside ∧ (bindings.bindAll arena .same inherited.parameters arguments).Covers around
            ([] ++ inherited.parameters) := by
        apply within_bindAll within nothing
        · exact fun argument listed =>
            (own argument listed).mono fun id mine => among id (List.mem_append_left _ mine)
        · exact fun argument listed id leads => covers id ((own argument listed).mem_of_parameter leads)
        · exact supplied.defaults target' inherited there
        · exact supplied.isSome_default? found there
        · exact fun id mine => subset id (List.mem_append_left _ mine)
      have grows₁ : bindings.Grows (bindings.bindAll arena .same inherited.parameters arguments) :=
        grows_bindAll bindings .same inherited.parameters arguments
      obtain ⟨within₂, grows₂, covers₂⟩ := ih there within₁ covers₁ subset first
      obtain ⟨within₃, grows₃, covers₃⟩ := others middle
        (fun other later => listed other (List.mem_cons_of_mem _ later)) within₂
        (covers.grows (grows₁.trans grows₂)) folded
      refine ⟨within₃, (grows₁.trans grows₂).trans grows₃, ?_⟩
      intro other among' target'' arguments' inherited' found' there'
      rcases List.mem_cons.1 among' with rfl | later
      · obtain ⟨rfl, rfl⟩ : target' = target'' ∧ arguments = arguments' := by
          simpa [found] using found'
        obtain rfl := Option.some.inj (there.symm.trans there')
        exact covers₂.grows grows₃
      · exact covers₃ other later target'' arguments' inherited' found' there'

/-! ## References -/

/-- What a reference binds is written in parameters known where it is read, and covers all parameters
that can be read inside. -/
theorem within_ofArguments {full : Prop} (sound : arena.IsSound full) (supplied : arena.IsSupplied)
    {target : DefinitionId} {definition : Definition} {arguments : List TypeId}
    (found : arena.lookup? type = some (.reference target arguments))
    (known : arena.definition? target = some definition) (written : arena.WrittenIn around type)
    {made : Instantiation} (h : ofArguments arena definition arguments = .ok made) :
    made.IsWithin arena around (arena.boundParameters definition) ∧
      made.Covers around (arena.boundParameters definition) := by
  have passed (argument : TypeId) (listed : argument ∈ arguments) : arena.WrittenIn around argument :=
    written.child sound.ordered found listed
  have unbound : IsWithin arena around (arena.boundParameters definition) [] := nofun
  have nothing : Covers [] around [] := nofun
  obtain ⟨within, covers⟩ : (bindAll arena .outer [] definition.parameters arguments).IsWithin arena around
      (arena.boundParameters definition) ∧
        (bindAll arena .outer [] definition.parameters arguments).Covers around
          ([] ++ definition.parameters) := by
    apply within_bindAll unbound nothing
    · exact passed
    · exact fun argument listed id leads => .inr ((passed argument listed).mem_of_parameter leads)
    · exact supplied.defaults target definition known
    · exact supplied.isSome_default? found known
    · exact fun id own => List.mem_append_left _ own
  obtain ⟨within', -, covers'⟩ := within_bindBases sound supplied known within covers (fun _ own => own) h
  exact ⟨within', covers'⟩

end Instantiation

end ShapeCheck
