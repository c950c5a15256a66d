import ShapeCheck.Document.Lowering
import ShapeCheck.Proofs.Instantiation.Trees
import ShapeCheck.Proofs.Termination.Compilation

set_option autoImplicit false

/-! # Documents whose compilation ends

A compilation of any type ends, with a validator or a verdict that there is none, unless a name is
spelled from itself or an access leads back to itself. Both happen: a default may mention its own
parameter. They cannot happen by themselves: where no parameter has a default and nothing is extended,
all names can be spelled, however instantiations grow.

Main facts: `Arena.settled_compileAt`, `exists_lower_compileAt_endless` (a document whose compilation
does not end) and `Arena.namesEnd_of_isBare`.
-/

namespace ShapeCheck

/-! ## Validators -/

/-- Builds the predicate of a root as its options ask, within a depth. -/
def Context.compileRootWithin (depth : Nat) (ctx : Context) (type : TypeId) : Build String := do
  if ctx.options.shortCircuit then compileWithin depth ctx (.ofKeyword .any)
  else
    let name ← compileWithin depth ctx type
    if ctx.options.valueMayBeAbsent then Build.optional name else return name

/-- The validator that a compilation ends with. -/
def Validator.ofOutcome (options : CompileOptions) :
    Except CompileError String × Registry → Except CompileError Validator
  | (.error e, _) => .error e
  | (.ok root, registry) =>
    let predicates :=
      if options.inlineTrivialPredicates then Predicate.inlineTrivial registry.predicates root
      else registry.predicates
    .ok ⟨root, predicates, options⟩

/-- The validator of a type, compiled within a depth. -/
def Arena.compileAt (arena : Arena) (depth : Nat) (type : TypeId) (options : CompileOptions) :
    Except CompileError Validator :=
  Validator.ofOutcome options (((Context.root arena options).compileRootWithin depth type).run.run .empty)

/-- A compilation is one within a depth that no machine exceeds. -/
theorem Arena.compile_eq_compileAt (arena : Arena) (type : TypeId) (options : CompileOptions) :
    arena.compile type options = arena.compileAt maxUnfoldingDepth type options := rfl

theorem Arena.settled_compileAt {arena : Arena} (names : arena.NamesEnd)
    (accesses : arena.AccessesEnd) (type : TypeId) (options : CompileOptions) :
    Settled fun depth => arena.compileAt depth type options := by
  have based : (Context.root arena options).IsOver arena := Context.isOver_root arena options
  have settles : Settles ∅ fun depth => (Context.root arena options).compileRootWithin depth type := by
    unfold Context.compileRootWithin
    split
    · exact settles_compileWithin names accesses ∅ based _
    · refine (settles_compileWithin names accesses ∅ based type).bind fun name => ?_
      split
      · exact .optional name
      · exact .pure name
  obtain ⟨result, registry, conclusive, -, stays⟩ := settles .empty nofun
  have ended : Conclusive (Validator.ofOutcome options (result, registry)) := by
    cases result with
    | error e => exact conclusive.error
    | ok root => exact conclusive_ok _
  refine ⟨_, ended, stays.mono fun depth made => ?_⟩
  exact congrArg (Validator.ofOutcome options) made

/-! ## Arguments alone -/

/-- Arguments alone bind parameters: there are no defaults, and no definition extends another. -/
structure Arena.IsBare (arena : Arena) : Prop where
  defaults : ∀ parameter ∈ arena.parameters, parameter.default = none
  bases : ∀ definition ∈ arena.definitions, definition.bases = []

/-- The arguments of a reference. -/
def Descriptor.arguments : Descriptor → List TypeId
  | .reference _ arguments => arguments
  | _ => []

/-- The type is an argument of a reference. -/
def Arena.IsArgument (arena : Arena) (type : TypeId) : Prop :=
  ∃ target arguments, .reference target arguments ∈ arena.descriptors ∧ type ∈ arguments

section
variable {arena : Arena} {s visible : Substitution}

theorem Arena.IsBare.default?_eq_none (bare : arena.IsBare) (id : ParameterId) :
    arena.default? id = none := by
  unfold Arena.default? Arena.parameter?
  cases found : arena.parameters[id.index]? with
  | none => rfl
  | some parameter => exact bare.defaults parameter (Array.mem_of_getElem? found)

theorem mem_bindAll (bare : arena.IsBare) {bindings : Instantiation} {parameters : List ParameterId}
    {arguments : List TypeId} {entry : ParameterId × Binding}
    (inside : entry ∈ bindings.bindAll arena .outer parameters arguments) :
    entry ∈ bindings ∨ entry.2.scope = .outer ∧ entry.2.type ∈ arguments := by
  induction parameters generalizing bindings arguments with
  | nil => exact .inl inside
  | cons parameter rest ih =>
    cases arguments with
    | nil =>
      unfold Instantiation.bindAll at inside
      rw [bare.default?_eq_none] at inside
      exact ih inside
    | cons argument arguments =>
      rcases ih inside with added | ⟨outer, passed⟩
      · unfold Instantiation.bind at added
        split at added
        · exact .inl added
        · split at added
          · exact .inl added
          · rcases List.mem_append.1 added with there | here
            · exact .inl there
            · obtain rfl := List.mem_singleton.1 here
              exact .inr ⟨rfl, List.mem_cons_self⟩
      · exact .inr ⟨outer, List.mem_cons_of_mem _ passed⟩

theorem Substitution.IsOver.mem_of_isBare (bare : arena.IsBare) (based : s.IsOver arena)
    {bindings : Instantiation} (inside : bindings ∈ s) {entry : ParameterId × Binding}
    (listed : entry ∈ bindings) : entry.2.scope = .outer ∧ arena.IsArgument entry.2.type := by
  obtain ⟨descriptor, known, made⟩ := based.2 bindings inside
  unfold Arena.bindings? at made
  split at made
  · rename_i target arguments
    obtain ⟨definition, found, made⟩ := Option.bind_eq_some_iff.1 made
    have plain : definition.bases = [] := bare.bases definition (Array.mem_of_getElem? found)
    have same : Instantiation.ofArguments arena definition arguments =
        .ok (Instantiation.bindAll arena .outer [] definition.parameters arguments) := by
      show Instantiation.bindBases arena (63 + 1) _ definition = _
      unfold Instantiation.bindBases
      rw [plain]
      rfl
    rw [same] at made
    cases made
    rcases mem_bindAll bare listed with none | ⟨outer, passed⟩
    · cases none
    · exact ⟨outer, target, arguments, known, passed⟩
  · cases made

theorem exists_entry_of_find? {id : ParameterId} {type : TypeId}
    (found : s.find? id = some (type, visible)) :
    ∃ bindings ∈ s, ∃ entry ∈ bindings, entry.2.type = type ∧
      (entry.2.scope = .outer → visible.length < s.length) := by
  induction s with
  | nil => cases found
  | cons inner outer ih =>
    have mem_of_lookup {binding : Binding} (h : inner.lookup id = some binding) :
        (id, binding) ∈ inner := by
      obtain ⟨before, after, split, -⟩ := List.lookup_eq_some_iff.1 h
      simp [split]
    unfold Substitution.find? at found
    split at found
    · rename_i bound
      cases found
      exact ⟨inner, List.mem_cons_self, _, mem_of_lookup bound, rfl, fun _ => by simp⟩
    · rename_i bound
      cases found
      exact ⟨inner, List.mem_cons_self, _, mem_of_lookup bound, rfl, nofun⟩
    · obtain ⟨bindings, inside, entry, listed, same, shorter⟩ := ih found
      refine ⟨bindings, List.mem_cons_of_mem _ inside, entry, listed, same, fun scope => ?_⟩
      exact Nat.lt_succ_of_lt (shorter scope)

theorem resolveWithin_of_isBare (bare : arena.IsBare) {steps : Nat} (based : s.IsOver arena)
    {id : ParameterId} {type : TypeId} (stands : s.resolveWithin arena steps id = .ok (type, visible)) :
    visible.length < s.length ∧ arena.IsArgument type ∧ ∀ next, arena.lookup? type ≠ some (.parameter next) := by
  induction steps generalizing s id with
  | zero => cases stands
  | succ steps ih =>
    obtain ⟨⟨target, between⟩, stepped, stands⟩ := bind_eq_ok.1 stands
    unfold Substitution.step at stepped
    rw [bare.default?_eq_none] at stepped
    split at stepped
    · rename_i found
      cases stepped
      obtain ⟨bindings, inside, entry, listed, rfl, shorter⟩ := exists_entry_of_find? found
      obtain ⟨outer, isArgument⟩ := based.mem_of_isBare bare inside listed
      have shorter := shorter outer
      simp only at stands
      split at stands
      · split at stands
        · cases stands
        · obtain ⟨still, rest⟩ := ih (based.of_suffix (Substitution.suffix_of_find? found)) stands
          exact ⟨Nat.lt_trans still shorter, rest⟩
      · rename_i structural
        cases stands
        exact ⟨shorter, isArgument, fun next found => structural next found⟩
    · cases stepped

theorem namedParts_subset_children (bare : arena.IsBare) (descriptor : Descriptor) :
    descriptor.namedParts arena ⊆ descriptor.children := by
  cases descriptor with
  | object shape =>
    simp only [Descriptor.namedParts, Descriptor.children]
    refine List.append_subset.2 ⟨?_, List.subset_append_right _ _⟩
    refine List.Subset.trans ?_ (List.subset_append_left _ _)
    exact fun type inside => List.mem_filterMap.2 <| by
      obtain ⟨property, listed, typed⟩ := List.mem_filterMap.1 inside
      exact ⟨property, (List.mem_filter.1 listed).1, typed⟩
  | reference target arguments =>
    simp only [Descriptor.namedParts, Descriptor.children]
    split
    · rename_i definition _
      generalize definition.parameters = parameters
      intro type inside
      obtain ⟨argument, listed, isType⟩ := List.mem_filterMap.1 inside
      rw [toOption_eq_some] at isType
      subst isType
      induction parameters generalizing arguments with
      | nil => cases listed
      | cons parameter rest ih =>
        cases arguments with
        | nil =>
          rcases List.mem_cons.1 listed with here | there
          · rw [bare.default?_eq_none] at here
            cases here
          · exact ih [] (List.mem_filterMap.2 ⟨_, there, rfl⟩) there
        | cons first arguments =>
          rcases List.mem_cons.1 listed with here | there
          · cases here
            exact List.mem_cons_self
          · exact List.mem_cons_of_mem _ (ih arguments (List.mem_filterMap.2 ⟨_, there, rfl⟩) there)
    · exact List.nil_subset _
  | _ => exact List.Subset.refl _

/-- Where arguments alone bind parameters, all names can be spelled. -/
theorem Arena.namesEnd_of_isBare (bare : arena.IsBare) (ordered : arena.IsOrdered) :
    arena.NamesEnd := by
  -- a parameter is read with fewer instantiations, and a part was entered before the whole
  let measure (goal : Substitution × TypeId) : Nat ×ₗ Nat := toLex (goal.1.length, goal.2.index)
  have falls {a b : Substitution × TypeId} (based : a.1.IsOver arena) (step : arena.NamedThrough a b) :
      b.1.IsOver arena ∧ measure b < measure a := by
    cases step with
    | part found inside =>
      have child := namedParts_subset_children bare _ inside
      exact ⟨based, Prod.Lex.lt_iff.2 (.inr ⟨rfl, ordered.child_lt found child⟩)⟩
    | parameter _ stands =>
      have shorter := (resolveWithin_of_isBare bare based stands).1
      exact ⟨based.resolve stands, Prod.Lex.lt_iff.2 (.inl shorter)⟩
  intro s type based cycle
  have below : ∀ goal, Relation.TransGen arena.NamedThrough (s, type) goal →
      goal.1.IsOver arena ∧ measure goal < measure (s, type) := by
    intro goal steps
    induction steps with
    | single step => exact falls based step
    | tail _ step ih => exact ⟨(falls ih.1 step).1, (falls ih.1 step).2.trans ih.2⟩
  exact lt_irrefl _ (below _ cycle).2

end

/-! ## A definition that grows -/

/-- `Node<T>` has a value of type `T`, a member typed by an access to that one, and a next node over
lists of `T`. -/
def growing : Document where
  definitions := [⟨"Node", [⟨"T", none⟩], [], .object
    [(⟨"value", false, false, false⟩, some (.parameter "T")),
      (⟨"first", false, false, false⟩,
        some (.indexAccess (.reference "Node" [.parameter "T"]) (.stringLiteral "value"))),
      (⟨"next", true, false, false⟩, some (.reference "Node" [.array (.parameter "T")]))] none⟩]
  root := .reference "Node" [.keyword .number]

/-- The arena that the document is entered into. -/
def growingArena : Arena where
  descriptors := Arena.initial.descriptors ++
    #[.parameter ⟨0⟩, .reference ⟨0⟩ [⟨14⟩], .stringLiteral "value", .indexAccess ⟨15⟩ ⟨16⟩,
      .array ⟨14⟩, .reference ⟨0⟩ [⟨18⟩],
      .object ⟨[⟨"value", some ⟨14⟩, false, false, false⟩, ⟨"first", some ⟨17⟩, false, false, false⟩,
        ⟨"next", some ⟨19⟩, true, false, false⟩], none⟩,
      .reference ⟨0⟩ [⟨5⟩]]
  parameters := #[⟨"T", none⟩]
  definitions := #[⟨"Node", [⟨0⟩], some ⟨20⟩, []⟩]

/-- How far a type of the arena is from one that is compiled under its own name. -/
def Descriptor.lead : Descriptor → Nat
  | .indexAccess _ _ => 2
  | .parameter _ => 1
  | _ => 0

theorem growing_isBare : growingArena.IsBare := ⟨by decide, by decide⟩

theorem lookup?_growing :
    growingArena.lookup? ⟨14⟩ = some (.parameter ⟨0⟩) ∧
      growingArena.lookup? ⟨15⟩ = some (.reference ⟨0⟩ [⟨14⟩]) ∧
      growingArena.lookup? ⟨20⟩ = some (.object ⟨[⟨"value", some ⟨14⟩, false, false, false⟩,
        ⟨"first", some ⟨17⟩, false, false, false⟩, ⟨"next", some ⟨19⟩, true, false, false⟩], none⟩) ∧
      growingArena.definition? ⟨0⟩ = some ⟨"Node", [⟨0⟩], some ⟨20⟩, []⟩ := by
  decide

theorem growing_access {type whole index : TypeId}
    (found : growingArena.lookup? type = some (.indexAccess whole index)) :
    whole = ⟨15⟩ ∧ index = ⟨16⟩ := by
  have all : ∀ descriptor ∈ growingArena.descriptors, ∀ pair ∈ (match descriptor with
      | .indexAccess whole index => [(whole, index)]
      | _ => []), pair = ((⟨15⟩ : TypeId), (⟨16⟩ : TypeId)) := by decide
  simpa using all _ (Array.mem_of_getElem? found) (whole, index) (by simp)

theorem growing_argument {type : TypeId} {descriptor : Descriptor}
    (isArgument : growingArena.IsArgument type)
    (found : growingArena.lookup? type = some descriptor) : descriptor.lead ≤ 1 := by
  have all : ∀ descriptor ∈ growingArena.descriptors, ∀ type ∈ descriptor.arguments,
      ∀ descriptor ∈ growingArena.lookup? type, descriptor.lead ≤ 1 := by decide
  obtain ⟨target, arguments, known, inside⟩ := isArgument
  exact all _ known type inside descriptor found

theorem growing_selects {ctx : Context} (based : ctx.IsOver growingArena) {steps : Nat}
    {member : Context × TypeId} (selects : ctx.Selects (.name "value") steps ⟨15⟩ member) :
    member.2 = ⟨14⟩ := by
  obtain ⟨-, reference, body, definition⟩ := lookup?_growing
  cases steps with
  | zero => exact selects.elim
  | succ steps =>
    unfold Context.Selects at selects
    rw [based.arena_eq, reference] at selects
    obtain ⟨_, inside, _, part, known, entered, is, first, selects⟩ := selects
    obtain rfl := Option.some.inj (definition.symm.trans known)
    obtain rfl := Option.some.inj is
    obtain rfl : part = ⟨20⟩ := by simpa using first.mem
    have there : inside.IsOver growingArena :=
      based.enter (based.arena_eq ▸ reference) (based.arena_eq ▸ definition) entered
    cases steps with
    | zero => exact selects.elim
    | succ steps =>
      unfold Context.Selects at selects
      rw [there.arena_eq, body] at selects
      simpa [Descriptor.membersAt, ObjectShape.declared?, ObjectShape.property?] using selects.2

theorem growing_leads {a b : Context × TypeId} (based : a.1.IsOver growingArena)
    (leads : Context.LeadsTo a b) {descriptor : Descriptor}
    (found : growingArena.lookup? b.2 = some descriptor) :
    ∃ before, growingArena.lookup? a.2 = some before ∧ descriptor.lead < before.lead := by
  have same := based.arena_eq
  cases leads with
  | @parameter ctx visible type target id there stands =>
    rw [same] at there
    obtain ⟨⟨target', s⟩, resolved, made⟩ := bind_eq_ok.1 stands
    cases made
    rw [same] at resolved
    obtain ⟨-, isArgument, structural⟩ :=
      resolveWithin_of_isBare growing_isBare based.substitution resolved
    have small := growing_argument isArgument found
    refine ⟨_, there, ?_⟩
    cases descriptor with
    | parameter next => exact absurd found (structural next)
    | indexAccess => cases Nat.not_succ_le_self 1 small
    | _ => exact Nat.zero_lt_one
  | @member ctx type whole index depth keys key member there indexed inside selects =>
    rw [same] at there
    obtain ⟨rfl, rfl⟩ := growing_access there
    refine ⟨_, there, ?_⟩
    have only : ctx.indexKeys depth ⟨16⟩ = .ok [.name "value"] := by
      have text : growingArena.lookup? ⟨16⟩ = some (.stringLiteral "value") := by decide
      show indexKeysWithin depth (63 + 1) ctx ⟨16⟩ = _
      unfold indexKeysWithin
      rw [same, Arena.lookup_eq_ok.2 text]
      rfl
    obtain rfl : keys = [.name "value"] := Except.ok.inj (indexed.symm.trans only)
    obtain rfl := List.mem_singleton.1 inside
    rw [growing_selects based selects, lookup?_growing.1] at found
    cases found
    exact Nat.one_lt_two

theorem growing_accessesEnd : growingArena.AccessesEnd := by
  intro ctx type based cycle
  have below : ∀ goal, Relation.TransGen Context.LeadsTo (ctx, type) goal →
      goal.1.IsOver growingArena ∧ ∀ descriptor, growingArena.lookup? goal.2 = some descriptor →
        ∃ before, growingArena.lookup? type = some before ∧ descriptor.lead < before.lead := by
    intro goal steps
    induction steps with
    | single leads => exact ⟨based.leadsTo leads, fun _ found => growing_leads based leads found⟩
    | tail _ leads ih =>
      refine ⟨Context.IsOver.leadsTo ih.1 leads, fun descriptor found => ?_⟩
      obtain ⟨between, there, less⟩ := growing_leads ih.1 leads found
      obtain ⟨before, first, less'⟩ := ih.2 between there
      exact ⟨before, first, Nat.lt_trans less less'⟩
  have known : ∃ descriptor, growingArena.lookup? type = some descriptor := by
    obtain ⟨goal, leads, -⟩ := Relation.TransGen.head'_iff.1 cycle
    have same := based.arena_eq
    cases leads with
    | parameter found => exact ⟨_, same ▸ found⟩
    | member found => exact ⟨_, same ▸ found⟩
  obtain ⟨descriptor, found⟩ := known
  obtain ⟨before, found', less⟩ := (below _ cycle).2 descriptor found
  obtain rfl := Option.some.inj (found.symm.trans found')
  exact Nat.lt_irrefl _ less

/-- The instantiations of `Node` grow without bound, but its compilation ends. -/
theorem settled_compileAt_growing :
    growing.lower .initial = (.ok ⟨21⟩, growingArena) ∧
      growingArena.NamesEnd ∧ growingArena.AccessesEnd ∧
        Settled fun depth => growingArena.compileAt depth ⟨21⟩ {} := by
  have names : growingArena.NamesEnd := Arena.namesEnd_of_isBare growing_isBare (by decide)
  exact ⟨by decide +kernel, names, growing_accessesEnd,
    Arena.settled_compileAt names growing_accessesEnd ⟨21⟩ {}⟩

/-! ## A default that mentions its own parameter -/

/-- `D<T = T[]>` is `T`, and no argument is given. -/
def selfDefault : Document where
  definitions := [⟨"D", [⟨"T", some (.array (.parameter "T"))⟩], [], .parameter "T"⟩]
  root := .reference "D" []

/-- The arena that the document is entered into. -/
def selfDefaultArena : Arena where
  descriptors := Arena.initial.descriptors ++ #[.parameter ⟨0⟩, .array ⟨14⟩, .reference ⟨0⟩ []]
  parameters := #[⟨"T", some ⟨15⟩⟩]
  definitions := #[⟨"D", [⟨0⟩], some ⟨14⟩, []⟩]

theorem typeNameWithin_selfDefault (depth : Nat) :
    (∃ inner, typeNameWithin selfDefaultArena depth [] false ⟨14⟩ = .error (.endless inner)) ∧
      ∃ inner, typeNameWithin selfDefaultArena depth [] false ⟨15⟩ = .error (.endless inner) := by
  have parameter : selfDefaultArena.lookup? ⟨14⟩ = some (.parameter ⟨0⟩) := by decide
  have array : selfDefaultArena.lookup? ⟨15⟩ = some (.array ⟨14⟩) := by decide
  have stands : Substitution.resolve selfDefaultArena [] ⟨0⟩ = .ok (⟨15⟩, []) := by rfl
  induction depth with
  | zero => exact ⟨⟨_, rfl⟩, _, rfl⟩
  | succ depth ih =>
    obtain ⟨⟨inner, here⟩, inner', there⟩ := ih
    constructor
    · exact ⟨inner', by rw [typeNameWithin_parameter parameter stands, there]⟩
    · refine ⟨inner, ?_⟩
      simp only [typeNameWithin, Arena.lookup, array, bind, Except.bind, Descriptor.nameWith, here]

/-- Compiling the document needs more than any depth. -/
theorem exists_lower_compileAt_endless :
    ∃ (document : Document) (type : TypeId) (arena : Arena),
      document.lower .initial = (.ok type, arena) ∧
        ∀ depth, ∃ inner, arena.compileAt depth type {} = .error (.endless inner) := by
  refine ⟨selfDefault, ⟨16⟩, selfDefaultArena, by decide +kernel, fun depth => ?_⟩
  have reference : selfDefaultArena.lookup? ⟨16⟩ = some (.reference ⟨0⟩ []) := by decide
  have definition : selfDefaultArena.definition? ⟨0⟩ = some ⟨"D", [⟨0⟩], some ⟨14⟩, []⟩ := by
    decide
  have arguments : selfDefaultArena.allArguments [⟨0⟩] [] = [.ok ⟨15⟩] := by rfl
  have named (depth : Nat) :
      ∃ inner, (Context.root selfDefaultArena {}).nameOf depth ⟨16⟩ = .error (.endless inner) := by
    cases depth with
    | zero => exact ⟨_, rfl⟩
    | succ depth =>
      obtain ⟨-, inner, spelled⟩ := typeNameWithin_selfDefault depth
      refine ⟨inner, ?_⟩
      simp only [Context.nameOf, Context.root, Context.exact, typeNameWithin, Arena.lookup, reference,
        bind, Except.bind, Descriptor.nameWith, referenceNameWith, definition, List.isEmpty_cons,
        Bool.false_eq_true, if_false, arguments, List.mapM_cons, spelled]
  cases depth with
  | zero => exact ⟨_, rfl⟩
  | succ depth =>
    obtain ⟨inner, spelled⟩ := named depth
    refine ⟨inner, ?_⟩
    have target : selfDefaultArena.target ⟨16⟩ ⟨0⟩ = .ok ⟨"D", [⟨0⟩], some ⟨14⟩, []⟩ :=
      Arena.target_eq_ok.2 definition
    have compiled : compileWithin (depth + 1) (Context.root selfDefaultArena {}) ⟨16⟩ =
        throw (.endless inner) := by
      unfold compileWithin
      simp only [Context.root, Arena.lookup_eq_ok.2 reference, Build.liftM_ok, pure_bind]
      simp only [compileDescriptor, Descriptor.leaf?, target, Build.liftM_ok, pure_bind]
      simp only [Context.root] at spelled
      simp only [spelled, Build.liftM_error]
      rfl
    simp only [Arena.compileAt, Context.compileRootWithin, compiled]
    rfl

end ShapeCheck
