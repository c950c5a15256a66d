import ShapeCheck.Compile.Error

set_option autoImplicit false

/-! # Substitution of type parameters

Inside a generic definition its parameters stand for the arguments of a reference. An
`Instantiation` holds these bindings; a `Substitution` is the list of the instantiations around a
type, the innermost first.

A binding remembers where its type was written. An argument was written outside of the
instantiation, so it is read with the instantiations further out; otherwise `Box<Box<T>>` inside of
`Box` would find its own binding again. A default, and an argument in a base, were written with the
parameters of the instantiation itself and are read with it.

Main facts: `Substitution.find?_outer` and `Substitution.find?_same` say with what a binding is
read, and `Substitution.find?_length_le` that nothing is read with more instantiations than there
are.
-/

namespace ShapeCheck

/-! ## Bindings -/

/-- Where the type of a binding was written. -/
inductive BindingScope
  /-- Around the instantiation. -/
  | outer
  /-- In the parameters of the instantiation itself. -/
  | same
  deriving DecidableEq, Repr, Inhabited

/-- What a type parameter stands for. -/
structure Binding where
  type : TypeId
  scope : BindingScope
  deriving DecidableEq, Repr, Inhabited

/-- The bindings of one reference to a generic definition. -/
abbrev Instantiation := List (ParameterId × Binding)

/-- The instantiations around a type, the innermost first. -/
abbrev Substitution := List Instantiation

/-- The greatest number of steps from one definition or parameter to the next. -/
def maxResolutionSteps : Nat := 64

/-- The greatest number of nested instantiations. -/
def maxInstantiationDepth : Nat := 50

/-- The name of a type parameter, or a numbered one if it is unknown. -/
def Arena.parameterName (arena : Arena) (id : ParameterId) : String :=
  match arena.parameter? id with
  | some info => info.name
  | none => "T" ++ toString id.index

/-! ## Resolution -/

namespace Substitution

/-- The innermost binding of a parameter: its type, and the substitution to read the type with. -/
def find? : Substitution → ParameterId → Option (TypeId × Substitution)
  | [], _ => none
  | inner :: outer, parameter =>
    match inner.lookup parameter with
    | some ⟨type, .outer⟩ => some (type, outer)
    | some ⟨type, .same⟩ => some (type, inner :: outer)
    | none => find? outer parameter

theorem find?_outer {inner : Instantiation} {outer : Substitution} {parameter : ParameterId}
    {type : TypeId} (h : inner.lookup parameter = some ⟨type, .outer⟩) :
    find? (inner :: outer) parameter = some (type, outer) := by
  simp [find?, h]

theorem find?_same {inner : Instantiation} {outer : Substitution} {parameter : ParameterId}
    {type : TypeId} (h : inner.lookup parameter = some ⟨type, .same⟩) :
    find? (inner :: outer) parameter = some (type, inner :: outer) := by
  simp [find?, h]

theorem find?_length_le {s visible : Substitution} {parameter : ParameterId} {type : TypeId}
    (h : s.find? parameter = some (type, visible)) : visible.length ≤ s.length := by
  induction s with
  | nil => simp [find?] at h
  | cons inner outer ih =>
    unfold find? at h
    split at h
    · cases h
      simp
    · cases h
      simp
    · exact Nat.le_succ_of_le (ih h)

/-- The type that a parameter stands for, or its default, with the substitution to read it with. -/
def step (arena : Arena) (s : Substitution) (parameter : ParameterId) :
    Except CompileError (TypeId × Substitution) :=
  match s.find? parameter with
  | some found => .ok found
  | none =>
    match arena.default? parameter with
    | some type => .ok (type, s)
    | none => .error (.unboundParameter (arena.parameterName parameter))

/-- Follows parameters that stand for parameters, for a number of steps. -/
def resolveWithin (arena : Arena) : Nat → Substitution → ParameterId →
    Except CompileError (TypeId × Substitution)
  | 0, _, parameter =>
    .error (.instantiationTooDeep (arena.parameterName parameter) maxResolutionSteps)
  | steps + 1, s, parameter => do
    let (type, visible) ← s.step arena parameter
    match arena.lookup? type with
    | some (.parameter next) =>
      -- a parameter that stands for itself would be followed until the steps run out
      if next = parameter then .error (.unboundParameter (arena.parameterName parameter))
      else resolveWithin arena steps visible next
    | _ => return (type, visible)

/-- The type that is not a parameter and that a parameter stands for in the end, with the
substitution to read it with. -/
def resolve (arena : Arena) (s : Substitution) (parameter : ParameterId) :
    Except CompileError (TypeId × Substitution) :=
  resolveWithin arena maxResolutionSteps s parameter

end Substitution

/-! ## Instantiation -/

namespace Instantiation

/-- Binds a parameter that is not bound yet. A parameter that would stand for itself is left out: it
is still open here. -/
def bind (arena : Arena) (bindings : Instantiation) (parameter : ParameterId) (binding : Binding) :
    Instantiation :=
  if arena.lookup? binding.type = some (.parameter parameter) then bindings
  else if (bindings.lookup parameter).isSome then bindings
  else bindings ++ [(parameter, binding)]

/-- Binds parameters to arguments from left to right; those without an argument to their defaults.
-/
def bindAll (arena : Arena) (scope : BindingScope) (bindings : Instantiation) :
    List ParameterId → List TypeId → Instantiation
  | [], _ => bindings
  | parameter :: rest, argument :: arguments =>
    bindAll arena scope (bindings.bind arena parameter ⟨argument, scope⟩) rest arguments
  -- defaults mention the parameters before them, which this instantiation binds
  | parameter :: rest, [] =>
    match arena.default? parameter with
    | some type => bindAll arena scope (bindings.bind arena parameter ⟨type, .same⟩) rest []
    | none => bindAll arena scope bindings rest []

/-- Adds what the bases of a definition bind, and their bases in turn, for a number of steps. -/
def bindBases (arena : Arena) : Nat → Instantiation → Definition →
    Except CompileError Instantiation
  | 0, _, definition => .error (.instantiationTooDeep definition.name maxResolutionSteps)
  | steps + 1, bindings, definition =>
    definition.bases.foldlM (fun bindings base =>
      match arena.lookup? base with
      | some (.reference target arguments) =>
        match arena.definition? target with
        | some inherited =>
          bindBases arena steps (bindings.bindAll arena .same inherited.parameters arguments)
            inherited
        | none => .ok bindings
      | _ => .ok bindings) bindings

/-- The bindings of a reference to a definition. -/
def ofArguments (arena : Arena) (definition : Definition) (arguments : List TypeId) :
    Except CompileError Instantiation :=
  bindBases arena maxResolutionSteps (bindAll arena .outer [] definition.parameters arguments)
    definition

end Instantiation

namespace Substitution

/-- The substitution inside of a reference to a definition. A reference that binds nothing changes
nothing, and only those that do count towards the limit. -/
def enter (arena : Arena) (s : Substitution) (definition : Definition) (arguments : List TypeId) :
    Except CompileError Substitution := do
  let bindings ← Instantiation.ofArguments arena definition arguments
  if bindings.isEmpty then return s
  else if maxInstantiationDepth ≤ s.length then
    throw (.instantiationTooDeep definition.name maxInstantiationDepth)
  else return bindings :: s

theorem enter_length_le {arena : Arena} {s inside : Substitution} {definition : Definition}
    {arguments : List TypeId} (h : s.enter arena definition arguments = .ok inside)
    (small : s.length ≤ maxInstantiationDepth) : inside.length ≤ maxInstantiationDepth := by
  unfold enter at h
  cases made : Instantiation.ofArguments arena definition arguments with
  | error e =>
    rw [made] at h
    cases h
  | ok bindings =>
    rw [made] at h
    simp only [bind, Except.bind, pure, Except.pure] at h
    split at h
    · cases h
      exact small
    · split at h
      · cases h
      · cases h
        simp only [List.length_cons]
        omega

end Substitution

end ShapeCheck
