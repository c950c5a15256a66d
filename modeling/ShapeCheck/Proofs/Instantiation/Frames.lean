import ShapeCheck.Compile.Substitution
import ShapeCheck.Proofs.Naming.Depth

set_option autoImplicit false

/-! # What an instantiation binds

A reference binds the parameters of its definition to its arguments, and those of all inherited
definitions to the arguments in the clauses that inherit them. If none of these parameters is there
twice, every one of them has the binding that is written down for it, except that a parameter that
stands for itself is left out.

Main facts: `Instantiation.lookup_argument`, `Instantiation.lookup_inherited` and
`Substitution.find?_enter` (what a parameter stands for inside of a reference).
-/

namespace ShapeCheck

/-- A definition applied to type arguments. -/
structure Application where
  definition : Definition
  arguments : List TypeId
  deriving DecidableEq, Repr

/-- The definitions that a definition extends, applied as its bases and their bases in turn say, for
a number of steps. -/
def Arena.inheritedWithin (arena : Arena) : Nat → Definition → List Application
  | 0, _ => []
  | steps + 1, definition =>
    definition.bases.flatMap fun base =>
      match arena.lookup? base with
      | some (.reference target arguments) =>
        match arena.definition? target with
        | some inherited => ⟨inherited, arguments⟩ :: inheritedWithin arena steps inherited
        | none => []
      | _ => []

/-- The definitions that a definition extends, directly or not. -/
def Arena.inherited (arena : Arena) (definition : Definition) : List Application :=
  arena.inheritedWithin maxResolutionSteps definition

/-- The parameters that a reference to a definition binds. One that belongs to a definition that is
inherited twice stands there twice. -/
def Arena.boundParameters (arena : Arena) (definition : Definition) : List ParameterId :=
  definition.parameters ++ (arena.inherited definition).flatMap (·.definition.parameters)

variable {arena : Arena}

theorem Arena.mem_inherited {definition inherited : Definition} {base : TypeId}
    {target : DefinitionId} {arguments : List TypeId} (inside : base ∈ definition.bases)
    (found : arena.lookup? base = some (.reference target arguments))
    (known : arena.definition? target = some inherited) :
    ⟨inherited, arguments⟩ ∈ arena.inherited definition := by
  refine List.mem_flatMap.2 ⟨base, inside, ?_⟩
  rw [found]
  simp only [known]
  exact List.mem_cons_self

namespace Instantiation

/-! ## Single bindings -/

section
variable {bindings : Instantiation} {parameter id : ParameterId} {binding : Binding}

theorem lookup_bind_of_ne (other : id ≠ parameter) :
    (bindings.bind arena parameter binding).lookup id = bindings.lookup id := by
  have absent : [(parameter, binding)].lookup id = none := by
    rw [List.lookup_cons, beq_eq_false_iff_ne.2 other, List.lookup_nil]
  unfold bind
  split
  · rfl
  · split
    · rfl
    · rw [List.lookup_append, absent, Option.or_none]

/-- A parameter that would stand for itself is left out. -/
theorem lookup_bind_self (free : bindings.lookup parameter = none) :
    (bindings.bind arena parameter binding).lookup parameter =
      if arena.lookup? binding.type = some (.parameter parameter) then none else some binding := by
  unfold bind
  split
  · exact free
  · simp [free, List.lookup_append]

end

/-! ## Bindings of a list of parameters -/

section
variable {scope : BindingScope} {parameters : List ParameterId} {id : ParameterId}

theorem lookup_bindAll_of_not_mem (absent : id ∉ parameters) (bindings : Instantiation)
    (arguments : List TypeId) :
    (bindings.bindAll arena scope parameters arguments).lookup id = bindings.lookup id := by
  induction parameters generalizing bindings arguments with
  | nil => rfl
  | cons parameter rest ih =>
    obtain ⟨other, absent⟩ := not_or.1 (List.mem_cons.not.1 absent)
    cases arguments with
    | cons argument arguments => rw [bindAll, ih absent, lookup_bind_of_ne other]
    | nil =>
      unfold bindAll
      split
      · rw [ih absent, lookup_bind_of_ne other]
      · exact ih absent bindings []

theorem lookup_bindAll (distinct : parameters.Nodup) {bindings : Instantiation}
    (free : bindings.lookup id = none) {arguments : List TypeId} {argument : TypeId}
    (inside : (id, argument) ∈ parameters.zip arguments) :
    (bindings.bindAll arena scope parameters arguments).lookup id =
      if arena.lookup? argument = some (.parameter id) then none else some ⟨argument, scope⟩ := by
  induction parameters generalizing bindings arguments with
  | nil => cases inside
  | cons parameter rest ih =>
    obtain ⟨absent, distinct⟩ := List.nodup_cons.1 distinct
    cases arguments with
    | nil => cases inside
    | cons first arguments =>
      rw [bindAll]
      rcases List.mem_cons.1 inside with here | there
      · obtain ⟨rfl, rfl⟩ := Prod.mk.inj here
        rw [lookup_bindAll_of_not_mem absent, lookup_bind_self free]
      · have other : id ≠ parameter := by
          rintro rfl
          exact absent (List.of_mem_zip there).1
        exact ih distinct (by rw [lookup_bind_of_ne other, free]) there

end

/-! ## Bindings of inherited definitions -/

/-- Adds the bindings of definitions that are extended. -/
def bindApplications (arena : Arena) (bindings : Instantiation) (applications : List Application) :
    Instantiation :=
  applications.foldl (fun bindings application =>
    bindings.bindAll arena .same application.definition.parameters application.arguments) bindings

/-- What bases bind is what the clauses of all inherited definitions bind, one after the other. -/
theorem bindBases_eq_ok {steps : Nat} {bindings made : Instantiation} {definition : Definition}
    (h : bindBases arena steps bindings definition = .ok made) :
    made = bindings.bindApplications arena (arena.inheritedWithin steps definition) := by
  induction steps generalizing bindings made definition with
  | zero => cases h
  | succ steps ih =>
    rw [bindBases] at h
    rw [Arena.inheritedWithin]
    generalize definition.bases = bases at h
    induction bases generalizing bindings with
    | nil =>
      cases h
      rfl
    | cons base rest onwards =>
      rw [List.foldlM_cons] at h
      obtain ⟨middle, first, h⟩ := bind_eq_ok.1 h
      rw [List.flatMap_cons, bindApplications, List.foldl_append]
      have others := onwards h
      rw [bindApplications] at others
      rw [others]
      congr 1
      cases found : arena.lookup? base with
      | none =>
        rw [found] at first
        cases first
        rfl
      | some descriptor =>
        rw [found] at first
        cases descriptor with
        | reference target arguments =>
          cases known : arena.definition? target with
          | none =>
            simp only [known] at first ⊢
            cases first
            rfl
          | some inherited =>
            simp only [known] at first ⊢
            rw [ih first, bindApplications, List.foldl_cons]
        | _ =>
          cases first
          rfl

theorem lookup_bindApplications_of_not_mem {id : ParameterId} {applications : List Application}
    (absent : id ∉ applications.flatMap (·.definition.parameters)) (bindings : Instantiation) :
    (bindings.bindApplications arena applications).lookup id = bindings.lookup id := by
  induction applications generalizing bindings with
  | nil => rfl
  | cons application rest ih =>
    rw [List.flatMap_cons, List.mem_append, not_or] at absent
    have others := ih absent.2
      (bindings.bindAll arena .same application.definition.parameters application.arguments)
    rw [lookup_bindAll_of_not_mem absent.1] at others
    exact others

theorem lookup_bindApplications {id : ParameterId} {applications : List Application}
    (distinct : (applications.flatMap (·.definition.parameters)).Nodup) {bindings : Instantiation}
    (free : bindings.lookup id = none) {application : Application}
    (listed : application ∈ applications) {argument : TypeId}
    (inside : (id, argument) ∈ application.definition.parameters.zip application.arguments) :
    (bindings.bindApplications arena applications).lookup id =
      if arena.lookup? argument = some (.parameter id) then none else some ⟨argument, .same⟩ := by
  induction applications generalizing bindings with
  | nil => cases listed
  | cons first rest ih =>
    rw [List.flatMap_cons] at distinct
    obtain ⟨here, others, apart⟩ := List.nodup_append.1 distinct
    have among := (List.of_mem_zip inside).1
    rw [bindApplications, List.foldl_cons]
    rcases List.mem_cons.1 listed with rfl | listed
    · have absent : id ∉ rest.flatMap (·.definition.parameters) :=
        fun there => apart id among id there rfl
      exact (lookup_bindApplications_of_not_mem absent _).trans (lookup_bindAll here free inside)
    · have there : id ∈ rest.flatMap (·.definition.parameters) :=
        List.mem_flatMap.2 ⟨application, listed, among⟩
      have absent : id ∉ first.definition.parameters := fun here => apart id here id there rfl
      exact ih others (by rw [lookup_bindAll_of_not_mem absent, free]) listed

/-! ## Bindings of a reference -/

section
variable {definition : Definition} {arguments : List TypeId} {made : Instantiation}
  (h : ofArguments arena definition arguments = .ok made)
include h

theorem ofArguments_eq_ok : made = (bindAll arena .outer [] definition.parameters
    arguments).bindApplications arena (arena.inherited definition) := bindBases_eq_ok h

variable (apart : (arena.boundParameters definition).Nodup) {id : ParameterId} {argument : TypeId}
include apart

theorem lookup_argument (inside : (id, argument) ∈ definition.parameters.zip arguments) :
    made.lookup id =
      if arena.lookup? argument = some (.parameter id) then none else some ⟨argument, .outer⟩ := by
  obtain ⟨distinct, -, disjoint⟩ := List.nodup_append.1 apart
  have among := (List.of_mem_zip inside).1
  rw [ofArguments_eq_ok h,
    lookup_bindApplications_of_not_mem fun there => disjoint id among id there rfl]
  exact lookup_bindAll distinct rfl inside

theorem lookup_inherited {application : Application}
    (listed : application ∈ arena.inherited definition)
    (inside : (id, argument) ∈ application.definition.parameters.zip application.arguments) :
    made.lookup id =
      if arena.lookup? argument = some (.parameter id) then none else some ⟨argument, .same⟩ := by
  obtain ⟨-, distinct, disjoint⟩ := List.nodup_append.1 apart
  have among : id ∈ (arena.inherited definition).flatMap (·.definition.parameters) :=
    List.mem_flatMap.2 ⟨application, listed, (List.of_mem_zip inside).1⟩
  have absent : id ∉ definition.parameters := fun here => disjoint id here id among rfl
  rw [ofArguments_eq_ok h]
  exact lookup_bindApplications distinct (by rw [lookup_bindAll_of_not_mem absent, List.lookup_nil])
    listed inside

end

end Instantiation

/-! ## Inside of a reference -/

namespace Substitution

variable {s inside : Substitution} {definition : Definition} {arguments : List TypeId}

theorem enter_eq_ok (h : s.enter arena definition arguments = .ok inside) :
    ∃ made, Instantiation.ofArguments arena definition arguments = .ok made ∧
      inside = if made.isEmpty then s else made :: s := by
  obtain ⟨made, bound, h⟩ := bind_eq_ok.1 h
  refine ⟨made, bound, ?_⟩
  split at h
  · rw [if_pos ‹_›]
    exact (Except.ok.inj h).symm
  · rw [if_neg ‹_›]
    split at h
    · cases h
    · exact (Except.ok.inj h).symm

theorem length_le_enter (h : s.enter arena definition arguments = .ok inside) :
    s.length ≤ inside.length := by
  obtain ⟨made, -, rfl⟩ := enter_eq_ok h
  split
  · exact Nat.le_refl _
  · exact Nat.le_succ _

theorem length_lt_enter (h : s.enter arena definition arguments = .ok inside)
    {made : Instantiation} (bound : Instantiation.ofArguments arena definition arguments = .ok made)
    {id : ParameterId} {binding : Binding} (found : made.lookup id = some binding) :
    s.length < inside.length := by
  obtain ⟨made', bound', rfl⟩ := enter_eq_ok h
  obtain rfl := Except.ok.inj (bound.symm.trans bound')
  cases made with
  | nil => cases found
  | cons first rest => exact Nat.lt_succ_self _

/-- Inside of a reference a parameter stands for what the reference binds it to, or for what it
stands for outside. -/
theorem find?_enter (h : s.enter arena definition arguments = .ok inside) (id : ParameterId) :
    ∃ made, Instantiation.ofArguments arena definition arguments = .ok made ∧
      inside.find? id =
        match made.lookup id with
        | some ⟨type, .outer⟩ => some (type, s)
        | some ⟨type, .same⟩ => some (type, inside)
        | none => s.find? id := by
  obtain ⟨made, bound, rfl⟩ := enter_eq_ok h
  refine ⟨made, bound, ?_⟩
  cases made with
  | nil => rfl
  | cons first rest =>
    simp only [List.isEmpty_cons, Bool.false_eq_true, if_false]
    cases found : (first :: rest).lookup id with
    | none => simp only [find?, found]
    | some binding =>
      obtain ⟨type, scope⟩ := binding
      cases scope <;> simp only [find?, found]

/-! ## Steps of resolution -/

section
variable {visible : Substitution} {id next : ParameterId} {type : TypeId} {steps : Nat}
  (found : s.find? id = some (type, visible))
include found

theorem resolveWithin_of_parameter (leads : arena.lookup? type = some (.parameter next))
    (other : next ≠ id) :
    s.resolveWithin arena (steps + 1) id = visible.resolveWithin arena steps next := by
  rw [resolveWithin, step, found]
  simp only [bind, Except.bind, leads, if_neg other]

theorem resolveWithin_of_structural (ends : ∀ next, arena.lookup? type ≠ some (.parameter next)) :
    s.resolveWithin arena (steps + 1) id = .ok (type, visible) := by
  rw [resolveWithin, step, found]
  simp only [bind, Except.bind]
  rfl

end

end Substitution

end ShapeCheck
