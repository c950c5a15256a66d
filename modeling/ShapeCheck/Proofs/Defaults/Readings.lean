import ShapeCheck.Proofs.Defaults.Frames
import ShapeCheck.Proofs.Documents.Contexts
import ShapeCheck.Proofs.Inheritance.Access
import ShapeCheck.Proofs.Simulation.Strategies

set_option autoImplicit false

/-! # The same type with different instantiations around it

A default is bound where its reference is instantiated, an argument is bound around it. Read with one
instantiation or the other, a type stands for the same as long as its parameters do: those that the
instantiations bind differently are not mentioned (`Substitution.Alike`). What the type leads to is then
alike as well, so the two readings are compiled in the same way, except that the one with more
instantiations may be nested too deeply.

Main facts: `Substitution.ReadsAlike.resolve` and `Substitution.ReadsAlike.enter` (what leads on is read
alike) and `isSimulation_readsAlike`.
-/

namespace ShapeCheck

variable {arena : Arena}

/-! ## Defaults inside of a reference -/

/-- Defaults of some parameters are written in these parameters. -/
def Arena.KeepsDefaults (arena : Arena) (ids : List ParameterId) : Prop :=
  ∀ id ∈ ids, ∀ type, arena.default? id = some type → arena.WrittenIn ids type

theorem exists_target_of_mem_inheritedWithin {steps : Nat} {definition : Definition}
    {application : Application} (inherits : application ∈ arena.inheritedWithin steps definition) :
    ∃ target, arena.definition? target = some application.definition ∧
      ∀ id ∈ application.definition.parameters, id ∈ arena.parametersWithin steps definition := by
  have listed (id : ParameterId) (own : id ∈ application.definition.parameters) :
      id ∈ arena.parametersWithin steps definition :=
    List.mem_append_right _ (List.mem_flatMap.2 ⟨application, inherits, own⟩)
  suffices known : ∃ target, arena.definition? target = some application.definition by
    obtain ⟨target, known⟩ := known
    exact ⟨target, known, listed⟩
  clear listed
  induction steps generalizing definition with
  | zero => cases inherits
  | succ steps ih =>
    obtain ⟨base, -, inherits⟩ := List.mem_flatMap.1 inherits
    split at inherits
    · split at inherits
      · rename_i target arguments leads _ inherited known
        rcases List.mem_cons.1 inherits with rfl | further
        · exact ⟨target, known⟩
        · exact ih further
      · cases inherits
    · cases inherits

/-- The defaults of all parameters that can be read inside of a reference can be read there. -/
theorem keepsDefaults_boundParameters (supplied : arena.IsSupplied) {target : DefinitionId}
    {definition : Definition} (known : arena.definition? target = some definition) :
    arena.KeepsDefaults (arena.boundParameters definition) := by
  intro id listed type isDefault
  -- the parameter belongs to the definition or to one that it inherits
  obtain ⟨owner, there, own, subset⟩ : ∃ owner, (∃ target, arena.definition? target = some owner) ∧
      id ∈ owner.parameters ∧ ∀ other ∈ owner.parameters, other ∈ arena.boundParameters definition := by
    rcases List.mem_append.1 listed with own | inherited
    · exact ⟨definition, ⟨target, known⟩, own, fun other own => List.mem_append_left _ own⟩
    · obtain ⟨application, inherits, own⟩ := List.mem_flatMap.1 inherited
      obtain ⟨target', there, subset⟩ := exists_target_of_mem_inheritedWithin inherits
      exact ⟨application.definition, ⟨target', there⟩, own, subset⟩
  obtain ⟨target', there⟩ := there
  obtain ⟨before, after, split⟩ := List.append_of_mem own
  have early : arena.WrittenIn before type :=
    supplied.defaults target' owner there before id after split type isDefault
  exact early.mono fun other earlier => subset other (by simp [split, earlier])

/-! ## Substitutions that are alike -/

namespace Substitution

/-- The parameter stands for the same with an instantiation and without it: the instantiation does not
bind it, and it is bound further out. -/
def PassesBy (s : Substitution) (bindings : Instantiation) (id : ParameterId) : Prop :=
  bindings.lookup id = none ∧ (s.find? id).isSome

/-- Of two instantiations inside of the same substitution, the second one binds a parameter as the first
one does, or binds outside what the first one binds inside. -/
inductive Rebinds (arena : Arena) (known : List ParameterId) (s : Substitution)
    (bindings bindings' : Instantiation) (id : ParameterId) : Prop
  | free (h : bindings.lookup id = none) (h' : bindings'.lookup id = none)
  | kept {binding : Binding} (h : bindings.lookup id = some binding)
      (h' : bindings'.lookup id = some binding)
      (written : binding.scope = .same → arena.WrittenIn known binding.type)
  | moved {type : TypeId} {open' : List ParameterId} (h : bindings.lookup id = some ⟨type, .same⟩)
      (h' : bindings'.lookup id = some ⟨type, .outer⟩) (written : arena.WrittenIn open' type)
      (passes : ∀ other ∈ open', s.PassesBy bindings other)

/-- Some parameters stand for the same with both substitutions, up to substitutions that are alike. -/
inductive Alike (arena : Arena) : List ParameterId → Substitution → Substitution → Prop
  | behind {known : List ParameterId} {s : Substitution} {bindings : Instantiation}
      (passes : ∀ id ∈ known, s.PassesBy bindings id) : Alike arena known (bindings :: s) s
  | rebound {known : List ParameterId} {s : Substitution} {bindings bindings' : Instantiation}
      (defaults : arena.KeepsDefaults known)
      (rebinds : ∀ id ∈ known, s.Rebinds arena known bindings bindings' id) :
      Alike arena known (bindings :: s) (bindings' :: s)
  | inside {known around : List ParameterId} {s s' : Substitution} {bindings : Instantiation}
      (outer : Alike arena around s s') (defaults : arena.KeepsDefaults known)
      (within : bindings.IsWithin arena around known) (covers : bindings.Covers around known) :
      Alike arena known (bindings :: s) (bindings :: s')

/-- The type stands for the same with both substitutions. -/
def ReadsAlike (arena : Arena) (s s' : Substitution) (type : TypeId) : Prop :=
  s = s' ∨ ∃ known, Alike arena known s s' ∧ arena.WrittenIn known type

variable {s s' visible : Substitution} {known : List ParameterId} {id : ParameterId} {type : TypeId}
  {stop : CompileError → Prop}

theorem find?_free {inner : Instantiation} {outer : Substitution} (h : inner.lookup id = none) :
    find? (inner :: outer) id = outer.find? id := by
  simp [find?, h]

theorem Alike.length_le (alike : Alike arena known s s') : s'.length ≤ s.length := by
  induction alike with
  | behind => exact Nat.le_succ _
  | rebound => exact Nat.le_refl _
  | inside _ _ _ _ ih => exact Nat.succ_le_succ ih

theorem ReadsAlike.length_le (alike : ReadsAlike arena s s' type) : s'.length ≤ s.length := by
  rcases alike with rfl | ⟨known, alike, -⟩
  · exact Nat.le_refl _
  · exact alike.length_le

theorem ReadsAlike.child (alike : ReadsAlike arena s s' type) (ordered : arena.IsOrdered)
    {descriptor : Descriptor} (found : arena.lookup? type = some descriptor) {child : TypeId}
    (inside : child ∈ descriptor.children) : ReadsAlike arena s s' child := by
  rcases alike with rfl | ⟨known, alike, written⟩
  · exact .inl rfl
  · exact .inr ⟨known, alike, written.child ordered found inside⟩

/-! ## Parameters -/

/-- What a parameter stands for with substitutions that are alike: the same type, which is read alike,
unless it is bound in neither. -/
theorem Alike.find? (alike : Alike arena known s s') (listed : id ∈ known) :
    (∃ type visible visible', s.find? id = some (type, visible) ∧ s'.find? id = some (type, visible') ∧
        ReadsAlike arena visible visible' type) ∨
      s.find? id = none ∧ s'.find? id = none ∧ arena.KeepsDefaults known := by
  induction alike with
  | @behind known s bindings passes =>
    left
    obtain ⟨free, bound⟩ := passes id listed
    obtain ⟨⟨type, visible⟩, found⟩ := Option.isSome_iff_exists.1 bound
    refine ⟨type, visible, visible, ?_, found, .inl rfl⟩
    rwa [find?_free free]
  | @rebound known s bindings bindings' defaults rebinds =>
    have alike : Alike arena known (bindings :: s) (bindings' :: s) := .rebound defaults rebinds
    cases rebinds id listed with
    | free h h' =>
      rw [find?_free h, find?_free h']
      cases found : s.find? id with
      | some binding => exact .inl ⟨binding.1, binding.2, binding.2, rfl, rfl, .inl rfl⟩
      | none => exact .inr ⟨rfl, rfl, defaults⟩
    | @kept binding h h' written =>
      left
      obtain ⟨type, scope⟩ := binding
      cases scope with
      | outer => exact ⟨type, s, s, find?_outer h, find?_outer h', .inl rfl⟩
      | same =>
        exact ⟨type, _, _, find?_same h, find?_same h', .inr ⟨known, alike, written rfl⟩⟩
    | moved h h' written passes =>
      exact .inl ⟨_, _, _, find?_same h, find?_outer h', .inr ⟨_, .behind passes, written⟩⟩
  | @inside known around s s' bindings outer defaults within covers ih =>
    have alike : Alike arena known (bindings :: s) (bindings :: s') := .inside outer defaults within covers
    cases bound : bindings.lookup id with
    | some binding =>
      left
      have written := within.of_lookup bound
      obtain ⟨type, scope⟩ := binding
      cases scope with
      | outer => exact ⟨type, s, s', find?_outer bound, find?_outer bound, .inr ⟨around, outer, written⟩⟩
      | same => exact ⟨type, _, _, find?_same bound, find?_same bound, .inr ⟨known, alike, written⟩⟩
    | none =>
      have further : id ∈ around := by simpa [bound] using covers id listed
      rw [find?_free bound, find?_free bound]
      rcases ih further with found | ⟨free, free', -⟩
      · exact .inl found
      · exact .inr ⟨free, free', defaults⟩

/-- One step from a parameter. -/
theorem ReadsAlike.step (alike : ReadsAlike arena s s' type)
    (found : arena.lookup? type = some (.parameter id)) :
    Follows stop (fun a b => a.1 = b.1 ∧ ReadsAlike arena a.2 b.2 a.1) (s.step arena id)
      (s'.step arena id) := by
  rcases alike with rfl | ⟨known, alike, written⟩
  · exact (Follows.refl _).mono fun a b same => same ▸ ⟨rfl, .inl rfl⟩
  · have listed : id ∈ known := written.mem_of_parameter found
    unfold Substitution.step
    rcases alike.find? listed with ⟨target, visible, visible', here, there, reads⟩ | ⟨here, there, defaults⟩
    · rw [here, there]
      exact ⟨rfl, reads⟩
    · rw [here, there]
      cases isDefault : arena.default? id with
      | none => exact Follows.error _ _
      | some target => exact ⟨rfl, .inr ⟨known, alike, defaults id listed target isDefault⟩⟩

/-- A parameter that is read alike stands for one type, which is read alike. -/
theorem ReadsAlike.resolveWithin (alike : ReadsAlike arena s s' type)
    (found : arena.lookup? type = some (.parameter id)) (steps : Nat) :
    Follows stop (fun a b => a.1 = b.1 ∧ ReadsAlike arena a.2 b.2 a.1) (s.resolveWithin arena steps id)
      (s'.resolveWithin arena steps id) := by
  induction steps generalizing s s' type id with
  | zero => exact Follows.error _ _
  | succ steps ih =>
    unfold Substitution.resolveWithin
    refine (alike.step found).bind ?_
    rintro ⟨target, visible⟩ ⟨target', visible'⟩ ⟨same, reads⟩
    obtain rfl : target = target' := same
    dsimp only
    split
    · rename_i next leads
      split
      · exact Follows.error _ _
      · exact ih reads leads
    · exact ⟨rfl, reads⟩

/-! ## References -/

/-- Inside of a reference that is read alike, everything that is written in the parameters of its
definition, and of all that this one inherits, is read alike. -/
theorem ReadsAlike.enter {full : Prop} (alike : ReadsAlike arena s s' type) (sound : arena.IsSound full)
    (supplied : arena.IsSupplied) {target : DefinitionId} {definition : Definition}
    {arguments : List TypeId} (found : arena.lookup? type = some (.reference target arguments))
    (known : arena.definition? target = some definition) :
    Follows CompileError.IsTooDeep
      (fun inside inside' => ∀ part, arena.WrittenIn (arena.boundParameters definition) part →
        ReadsAlike arena inside inside' part)
      (s.enter arena definition arguments) (s'.enter arena definition arguments) := by
  rcases alike with rfl | ⟨around, alike, written⟩
  · exact (Follows.refl _).mono fun a b same part _ => .inl same
  · have shallower := alike.length_le
    unfold Substitution.enter
    refine Follows.bind (R := fun made made' => made = made' ∧
        Instantiation.ofArguments arena definition arguments = .ok made) ?_ fun made _ ⟨same, made'⟩ => ?_
    · cases Instantiation.ofArguments arena definition arguments with
      | error e => exact Follows.error _ _
      | ok made => exact ⟨rfl, rfl⟩
    · subst same
      obtain ⟨within, covers⟩ :=
        Instantiation.within_ofArguments sound supplied found known written made'
      have defaults := keepsDefaults_boundParameters supplied known
      by_cases empty : made.isEmpty = true
      · rw [if_pos empty, if_pos empty]
        -- nothing is bound, so all these parameters are known around
        rw [List.isEmpty_iff] at empty
        intro part partWritten
        refine .inr ⟨around, alike, partWritten.mono fun id listed => ?_⟩
        simpa [empty] using covers id listed
      · rw [if_neg empty, if_neg empty]
        by_cases deep : maxInstantiationDepth ≤ s.length
        · rw [if_pos deep]
          exact Follows.stopped ⟨_, _, rfl⟩
        · have shallow : ¬ maxInstantiationDepth ≤ s'.length := by omega
          rw [if_neg deep, if_neg shallow]
          intro part partWritten
          exact .inr ⟨_, .inside alike defaults within covers, partWritten⟩

end Substitution

/-! ## Contexts -/

/-- What two references to one definition find inside of it is related if everything is that is written
in the parameters of the definition, and of all that it inherits. -/
theorem Context.insideAlike {S : Context → TypeId → Context → TypeId → Prop} {stop : CompileError → Prop}
    {ctx ctx' inside inside' : Context} {full : Prop} (complete : ctx.arena.IsComplete full)
    (same : ctx'.arena = ctx.arena) {target : DefinitionId} {definition : Definition}
    (known : ctx.arena.definition? target = some definition)
    (parts : ∀ part, ctx.arena.WrittenIn (ctx.arena.boundParameters definition) part →
      S inside part inside' part) :
    ctx.InsideAlike stop S inside definition ctx' inside' definition := by
  have own (part : TypeId) (written : ctx.arena.WrittenIn definition.parameters part) :
      S inside part inside' part :=
    parts part (written.mono fun _ mine => List.mem_append_left _ mine)
  constructor
  · intro body given body' given'
    obtain rfl := Option.some.inj (given.symm.trans given')
    exact own body (complete.sound.bodies target definition known body given)
  · exact List.forall₂_same.2 fun base listed =>
      own base (complete.sound.bases target definition known base listed).1
  · rw [same]
    cases merged : ctx.arena.mergedShape definition with
    | error e => exact Follows.error _ _
    | ok shape =>
      obtain ⟨-, written⟩ :=
        writtenIn_mergedShapeWithin complete.sound complete.bodies maxResolutionSteps known
      exact ObjectShape.Pairs.self fun part listed => parts part (written shape merged part listed)

/-- A type of an arena that stands for the same in both contexts. -/
structure Context.ReadsAlike (arena : Arena) (ctx : Context) (type : TypeId) (ctx' : Context)
    (type' : TypeId) : Prop where
  arena_eq : ctx.arena = arena
  arena_eq' : ctx'.arena = arena
  options : ctx.options = ctx'.options
  same : type = type'
  reads : Substitution.ReadsAlike arena ctx.substitution ctx'.substitution type

namespace Context.ReadsAlike

variable {S : Context → TypeId → Context → TypeId → Prop} {ctx ctx' : Context} {type type' : TypeId}

theorem withExact (alike : ctx.ReadsAlike arena type ctx' type') (exact : Bool) :
    (ctx.withExact exact).ReadsAlike arena type (ctx'.withExact exact) type' where
  arena_eq := alike.arena_eq
  arena_eq' := alike.arena_eq'
  options := by rw [Context.withExact, Context.withExact, alike.options]
  same := alike.same
  reads := alike.reads

theorem keyword {full : Prop} (alike : ctx.ReadsAlike arena type ctx' type') (sound : arena.IsSound full)
    (word : Keyword) : ctx.ReadsAlike arena (.ofKeyword word) ctx' (.ofKeyword word) where
  arena_eq := alike.arena_eq
  arena_eq' := alike.arena_eq'
  options := alike.options
  same := rfl
  reads := by
    rcases alike.reads with same | ⟨known, alike, -⟩
    · exact .inl same
    · have builtin : (TypeId.ofKeyword word).isBuiltin = true := by cases word <;> rfl
      exact .inr ⟨known, alike, sound.writtenIn_builtin builtin known⟩

variable (complete : arena.IsComplete False) (supplied : arena.IsSupplied)
  (reading : ∀ {ctx type ctx' type'}, ctx.ReadsAlike arena type ctx' type' → S ctx type ctx' type')
include complete supplied reading

/-- References that are read alike look the same. -/
theorem refers (alike : ctx.ReadsAlike arena type ctx' type') {target : DefinitionId}
    {arguments : List TypeId} (found : arena.lookup? type = some (.reference target arguments)) :
    ctx.Refers CompileError.IsTooDeep S ctx' target arguments target arguments := by
  obtain ⟨rfl, same, options, rfl, reads⟩ := alike
  have here (part : TypeId) (partly : Substitution.ReadsAlike ctx.arena ctx.substitution ctx'.substitution
      part) : S ctx part ctx' part := reading ⟨rfl, same, options, rfl, partly⟩
  refine ⟨by rw [same], ?_⟩
  rw [same]
  cases known : ctx.arena.definition? target with
  | none => exact .none
  | some definition =>
    refine .some ⟨rfl, ?_, rfl, ?_⟩
    · -- what is left out is written in parameters of the reference
      rw [same]
      have given (parameters : List ParameterId) (arguments : List TypeId)
          (passed : ∀ argument ∈ arguments,
            Substitution.ReadsAlike ctx.arena ctx.substitution ctx'.substitution argument)
          (left : ∀ id ∈ parameters.drop arguments.length, ∀ default,
            ctx.arena.default? id = some default →
              Substitution.ReadsAlike ctx.arena ctx.substitution ctx'.substitution default) :
          List.Forall₂ (Follows CompileError.IsTooDeep fun part part' => S ctx part ctx' part')
            (ctx.arena.allArguments parameters arguments)
            (ctx.arena.allArguments parameters arguments) := by
        induction parameters generalizing arguments with
        | nil => exact .nil
        | cons parameter rest ih =>
          cases arguments with
          | cons argument arguments =>
            refine .cons (here argument (passed argument List.mem_cons_self)) (ih arguments ?_ ?_)
            · exact fun other listed => passed other (List.mem_cons_of_mem _ listed)
            · exact left
          | nil =>
            refine .cons ?_ (ih [] nofun fun id listed => left id ?_)
            · cases isDefault : ctx.arena.default? parameter with
              | none => exact Follows.error _ _
              | some default => exact here default (left parameter List.mem_cons_self default isDefault)
            · exact List.mem_cons_of_mem _ (by simpa using listed)
      apply given
      · exact fun argument listed => reads.child complete.sound.ordered found listed
      · intro id left default isDefault
        obtain ⟨default', isDefault', written⟩ :=
          supplied.given type target arguments definition found known id left
        obtain rfl := Option.some.inj (isDefault.symm.trans isDefault')
        rcases reads with same | ⟨scope, alike, inScope⟩
        · exact .inl same
        · exact .inr ⟨scope, alike, written.mono inScope.2⟩
    · rw [same]
      refine (reads.enter complete.sound supplied found known).mono fun inside inside' within => ?_
      exact Context.insideAlike complete same known fun part written =>
        reading ⟨rfl, same, options, rfl, within part written⟩

/-- Types that are read alike look the same, if all types that are read alike do. -/
theorem pairs (alike : ctx.ReadsAlike arena type ctx' type') :
    Option.Rel (ctx.Pairs CompileError.IsTooDeep S ctx') (ctx.arena.lookup? type)
      (ctx'.arena.lookup? type') := by
  have asReference {target : DefinitionId} {arguments : List TypeId}
      (found : arena.lookup? type = some (.reference target arguments)) :=
    alike.refers complete supplied reading found
  obtain ⟨rfl, same, options, rfl, reads⟩ := alike
  rw [same]
  cases found : ctx.arena.lookup? type with
  | none => exact .none
  | some descriptor =>
    refine .some (.self ?_ ?_ ?_)
    · exact fun child inside =>
        reading ⟨rfl, same, options, rfl, reads.child complete.sound.ordered found inside⟩
    · rintro target arguments rfl
      exact asReference found
    · rintro id rfl
      unfold Context.Stands
      rw [same]
      refine (reads.resolveWithin found maxResolutionSteps).mono fun a b ⟨type, within⟩ => ?_
      exact reading ⟨rfl, same, options, type, within⟩

end Context.ReadsAlike

end ShapeCheck
