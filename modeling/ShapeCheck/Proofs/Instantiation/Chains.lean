import ShapeCheck.Proofs.Instantiation.Frames
import ShapeCheck.Proofs.Instantiation.Trees

set_option autoImplicit false

/-! # Instantiation is substitution

A type inside of nested references is written in the parameters of the innermost definition, the
arguments of that reference in those of the next one, and so on outwards. Resolving all parameters,
each with the substitution that resolving the one before it has left, gives the type with the
arguments put in place of the parameters, reference by reference.

A parameter is followed outwards only, so it never takes more steps than there are instantiations,
and these are fewer than the steps that are allowed.

Main statement: `Arena.resolvesTo_substitute`.
-/

namespace ShapeCheck

/-! ## Chains of references -/

/-- The substitution inside of nested references, the innermost first. -/
def Substitution.enterAll (arena : Arena) : List Application → Except CompileError Substitution
  | [] => .ok []
  | inner :: outer => do
    (← enterAll arena outer).enter arena inner.definition inner.arguments

/-- The parameters in which types inside of nested references are written. -/
def openIn : List Application → List ParameterId
  | [] => []
  | inner :: _ => inner.definition.parameters

/-- The reference passes all arguments, written in some parameters, and binds no parameter twice:
each inherited definition is reached in one way. -/
structure Application.IsFull (arena : Arena) (parameters : List ParameterId)
    (application : Application) : Prop where
  full : application.arguments.length = application.definition.parameters.length
  written : ∀ argument ∈ application.arguments, arena.WrittenIn parameters argument
  apart : (arena.boundParameters application.definition).Nodup

/-- Each reference is full, with arguments that are written in the parameters of the next one
outwards; those of the outermost one are closed. -/
def Arena.IsChain (arena : Arena) : List Application → Prop
  | [] => True
  | inner :: outer => inner.IsFull arena (openIn outer) ∧ IsChain arena outer

/-- The tree that a reference passes for a parameter. -/
def Application.assign (arena : Arena) (application : Application) (id : ParameterId) : TypeTree :=
  match (application.definition.parameters.zip application.arguments).lookup id with
  | some argument => arena.treeOf argument
  | none => .parameter id

/-- Puts the arguments of nested references in place of the parameters, from the inside out. -/
def Arena.substitute (arena : Arena) (chain : List Application) (tree : TypeTree) : TypeTree :=
  chain.foldl (fun tree application => tree.subst (application.assign arena)) tree

/-! ## Resolved types -/

/-- Writes a type out with its parameters resolved, each read with what resolving the parameters
around it has left. -/
def Arena.resolveAll (arena : Arena) : Nat → Substitution → TypeId → Except CompileError TypeTree
  | 0, _, type => .error (.endless type)
  | depth + 1, s, type => do
    match ← arena.lookup type with
    | .parameter id =>
      let (target, visible) ← s.resolve arena id
      resolveAll arena depth visible target
    | descriptor =>
      return .node descriptor.head (← descriptor.children.mapM (resolveAll arena depth s))

/-- The type with its parameters resolved is the tree, within any depth beyond some. -/
def Arena.ResolvesTo (arena : Arena) (s : Substitution) (type : TypeId) (tree : TypeTree) : Prop :=
  ∃ least, ∀ depth, least ≤ depth → arena.resolveAll depth s type = .ok tree

namespace Arena

variable {arena : Arena} {s visible : Substitution} {type target : TypeId} {id : ParameterId}

theorem resolvesTo_parameter (found : arena.lookup? type = some (.parameter id))
    (stands : s.resolve arena id = .ok (target, visible)) {tree : TypeTree}
    (h : arena.ResolvesTo visible target tree) : arena.ResolvesTo s type tree := by
  obtain ⟨least, each⟩ := h
  refine ⟨least + 1, fun depth enough => ?_⟩
  obtain ⟨depth, rfl⟩ : ∃ n, depth = n + 1 := ⟨depth - 1, by omega⟩
  rw [resolveAll, lookup, found]
  simp only [bind, Except.bind, stands]
  exact each depth (by omega)

/-- One depth serves all of several types. -/
theorem exists_depth_mapM {tree : TypeId → TypeTree} {types : List TypeId}
    (h : ∀ type ∈ types, arena.ResolvesTo s type (tree type)) :
    ∃ least, ∀ depth, least ≤ depth →
      types.mapM (arena.resolveAll depth s) = .ok (types.map tree) := by
  induction types with
  | nil => exact ⟨0, fun depth _ => rfl⟩
  | cons type rest ih =>
    obtain ⟨first, here⟩ := h type (by simp)
    obtain ⟨others, there⟩ := ih fun type inside => h type (by simp [inside])
    refine ⟨max first others, fun depth enough => ?_⟩
    rw [List.mapM_cons, here depth (by omega), there depth (by omega)]
    rfl

theorem resolvesTo_node {descriptor : Descriptor} (found : arena.lookup? type = some descriptor)
    (structural : descriptor.IsStructural) {tree : TypeId → TypeTree}
    (h : ∀ child ∈ descriptor.children, arena.ResolvesTo s child (tree child)) :
    arena.ResolvesTo s type (.node descriptor.head (descriptor.children.map tree)) := by
  obtain ⟨least, each⟩ := exists_depth_mapM h
  refine ⟨least + 1, fun depth enough => ?_⟩
  obtain ⟨depth, rfl⟩ : ∃ n, depth = n + 1 := ⟨depth - 1, by omega⟩
  have children := each depth (by omega)
  rw [resolveAll, lookup, found]
  simp only [bind, Except.bind]
  cases descriptor with
  | parameter id => exact absurd rfl (structural id)
  | _ =>
    simp only [children]
    rfl

/-! ## Substituted trees -/

theorem substitute_node (chain : List Application) (head : Descriptor) (children : List TypeTree) :
    arena.substitute chain (.node head children) =
      .node head (children.map (arena.substitute chain)) := by
  induction chain generalizing children with
  | nil => exact congrArg (TypeTree.node head) (List.map_id children).symm
  | cons inner outer ih =>
    show arena.substitute outer (.node head (TypeTree.substAll (inner.assign arena) children)) = _
    rw [ih, TypeTree.substAll_eq_map, List.map_map]
    rfl

theorem lookup_zip {parameters : List ParameterId} (distinct : parameters.Nodup)
    {arguments : List TypeId} {argument : TypeId}
    (inside : (id, argument) ∈ parameters.zip arguments) :
    (parameters.zip arguments).lookup id = some argument := by
  induction parameters generalizing arguments with
  | nil => cases inside
  | cons parameter rest ih =>
    obtain ⟨absent, distinct⟩ := List.nodup_cons.1 distinct
    cases arguments with
    | nil => cases inside
    | cons first arguments =>
      rw [List.zip_cons_cons, List.lookup_cons]
      rcases List.mem_cons.1 inside with here | there
      · obtain ⟨rfl, rfl⟩ := Prod.mk.inj here
        simp
      · have other : id ≠ parameter := by
          rintro rfl
          exact absent (List.of_mem_zip there).1
        simp only [beq_eq_false_iff_ne.2 other]
        exact ih distinct there

/-- A parameter of the innermost definition becomes the argument that is passed for it. -/
theorem substitute_parameter {inner : Application} {argument : TypeId}
    (apart : (arena.boundParameters inner.definition).Nodup)
    (inside : (id, argument) ∈ inner.definition.parameters.zip inner.arguments)
    (outer : List Application) :
    arena.substitute (inner :: outer) (.parameter id) =
      arena.substitute outer (arena.treeOf argument) := by
  have known := lookup_zip (List.nodup_append.1 apart).1 inside
  rw [substitute, List.foldl_cons, TypeTree.subst, Application.assign, known]
  rfl

end Arena

/-! ## Parameters of nested references -/

section
variable {arena : Arena} {chain : List Application} {s : Substitution} {id : ParameterId}

theorem Application.IsFull.exists_argument {parameters : List ParameterId} {application : Application}
    (h : application.IsFull arena parameters) (inside : id ∈ application.definition.parameters) :
    ∃ argument, (id, argument) ∈ application.definition.parameters.zip application.arguments ∧
      arena.WrittenIn parameters argument := by
  obtain ⟨i, known, rfl⟩ := List.getElem_of_mem inside
  have known' : i < application.arguments.length := h.full ▸ known
  refine ⟨application.arguments[i], ?_, h.written _ (List.getElem_mem known')⟩
  refine List.mem_iff_getElem.2 ⟨i, ?_, List.getElem_zip⟩
  rw [List.length_zip]
  omega

/-- A parameter of nested references stands for a type that is written further out. -/
structure Binds (arena : Arena) (chain outer : List Application) (id : ParameterId)
    (type : TypeId) : Prop where
  shorter : outer.length < chain.length
  isChain : arena.IsChain outer
  written : arena.WrittenIn (openIn outer) type
  same : arena.substitute chain (.parameter id) = arena.substitute outer (arena.treeOf type)

theorem Binds.cons {outer outer' : List Application} {inner : Application} {type : TypeId}
    (h : Binds arena outer outer' id type)
    (same : arena.substitute (inner :: outer) (.parameter id) =
      arena.substitute outer (.parameter id)) :
    Binds arena (inner :: outer) outer' id type :=
  ⟨Nat.lt_succ_of_lt h.shorter, h.isChain, h.written, same.trans h.same⟩

theorem Binds.trans {outer outer' : List Application} {next : ParameterId} {type target : TypeId}
    (h : Binds arena chain outer id type) (leads : arena.lookup? type = some (.parameter next))
    (h' : Binds arena outer outer' next target) : Binds arena chain outer' id target := by
  refine ⟨Nat.lt_trans h'.shorter h.shorter, h'.isChain, h'.written, ?_⟩
  rw [h.same, Arena.treeOf_parameter leads]
  exact h'.same

/-- The binding of a parameter is found at the first reference, from the inside out, that does not
pass the parameter on as it is. -/
theorem exists_binding (isChain : arena.IsChain chain)
    (entered : Substitution.enterAll arena chain = .ok s) (inside : id ∈ openIn chain) :
    ∃ type outer visible, s.find? id = some (type, visible) ∧
      Substitution.enterAll arena outer = .ok visible ∧ visible.length < s.length ∧
        arena.lookup? type ≠ some (.parameter id) ∧ Binds arena chain outer id type := by
  induction chain generalizing s with
  | nil => cases inside
  | cons inner outer ih =>
    obtain ⟨isFull, rest⟩ := isChain
    obtain ⟨around, outside, entered⟩ := bind_eq_ok.1 entered
    obtain ⟨argument, passed, written⟩ := isFull.exists_argument inside
    have same := Arena.substitute_parameter isFull.apart passed outer
    obtain ⟨made, bound, found⟩ := Substitution.find?_enter entered id
    have binding := Instantiation.lookup_argument bound isFull.apart passed
    rw [binding] at found
    by_cases identity : arena.lookup? argument = some (.parameter id)
    · rw [if_pos identity] at found
      rw [Arena.treeOf_parameter identity] at same
      obtain ⟨type, outer', visible, here, entered', shorter, other, binds⟩ :=
        ih rest outside (written.mem_of_parameter identity)
      have grown := Substitution.length_le_enter entered
      exact ⟨type, outer', visible, found.trans here, entered', by omega, other, binds.cons same⟩
    · rw [if_neg identity] at found binding
      have shorter := Substitution.length_lt_enter entered bound binding
      exact ⟨argument, outer, around, found, outside, shorter, identity,
        ⟨Nat.lt_succ_self _, rest, written, same⟩⟩

/-- As many steps as there are instantiations lead to a type that is no parameter. -/
theorem exists_resolveWithin {steps : Nat} (isChain : arena.IsChain chain)
    (entered : Substitution.enterAll arena chain = .ok s) (inside : id ∈ openIn chain)
    (enough : s.length ≤ steps) :
    ∃ type outer visible, s.resolveWithin arena steps id = .ok (type, visible) ∧
      Substitution.enterAll arena outer = .ok visible ∧ Binds arena chain outer id type := by
  induction steps generalizing chain s id with
  | zero =>
    obtain ⟨type, outer, visible, -, -, shorter, -⟩ := exists_binding isChain entered inside
    omega
  | succ steps ih =>
    obtain ⟨type, outer, visible, found, outside, shorter, other, binds⟩ :=
      exists_binding isChain entered inside
    by_cases open' : ∃ next, arena.lookup? type = some (.parameter next)
    · obtain ⟨next, leads⟩ := open'
      have different : next ≠ id := by
        rintro rfl
        exact other leads
      obtain ⟨target, outer', visible', resolved, outside', binds'⟩ :=
        ih binds.isChain outside (binds.written.mem_of_parameter leads) (by omega)
      refine ⟨target, outer', visible', ?_, outside', binds.trans leads binds'⟩
      rw [Substitution.resolveWithin_of_parameter found leads different, resolved]
    · have ends := not_exists.1 open'
      exact ⟨type, outer, visible, Substitution.resolveWithin_of_structural found ends, outside,
        binds⟩

theorem length_enterAll_le (entered : Substitution.enterAll arena chain = .ok s) :
    s.length ≤ maxInstantiationDepth := by
  induction chain generalizing s with
  | nil =>
    cases entered
    exact Nat.zero_le _
  | cons inner outer ih =>
    obtain ⟨around, outside, entered⟩ := bind_eq_ok.1 entered
    exact Substitution.enter_length_le entered (ih outside)

end

/-! ## Types inside of nested references -/

namespace Arena

variable {arena : Arena} {chain : List Application} {s : Substitution} {type : TypeId}

/-- A type that is written in the parameters of nested references resolves to the type with the
arguments put in place of the parameters. -/
theorem resolvesTo_of_writtenIn (ordered : arena.IsOrdered) (isChain : arena.IsChain chain)
    (entered : Substitution.enterAll arena chain = .ok s)
    (written : arena.WrittenIn (openIn chain) type) :
    arena.ResolvesTo s type (arena.substitute chain (arena.treeOf type)) := by
  -- a parameter leads to a shorter chain, a child to a smaller handle in the same one
  induction length : chain.length using Nat.strongRecOn generalizing chain s type with
  | ind length outwards =>
    subst length
    induction index : type.index using Nat.strongRecOn generalizing type with
    | ind index downwards =>
      subst index
      obtain ⟨descriptor, found⟩ := exists_lookup?_of_lt written.1
      by_cases open' : ∃ id, descriptor = .parameter id
      · obtain ⟨id, rfl⟩ := open'
        have limit : s.length ≤ maxResolutionSteps :=
          Nat.le_trans (length_enterAll_le entered) (by decide)
        obtain ⟨target, outer, visible, resolved, outside, binds⟩ :=
          exists_resolveWithin isChain entered (written.mem_of_parameter found) limit
        rw [treeOf_parameter found, binds.same]
        exact resolvesTo_parameter found resolved
          (outwards _ binds.shorter binds.isChain outside binds.written rfl)
      · have structural : descriptor.IsStructural := fun id same => open' ⟨id, same⟩
        rw [treeOf_node ordered found structural, substitute_node, List.map_map]
        exact resolvesTo_node found structural fun child inside =>
          downwards _ (ordered.child_lt found inside) (written.child ordered found inside) rfl

/-- A parameter of a definition that the innermost one extends resolves as the argument in the clause
that extends it. -/
theorem resolvesTo_inherited (ordered : arena.IsOrdered) {inner : Application}
    {outer : List Application} (isChain : arena.IsChain (inner :: outer))
    (entered : Substitution.enterAll arena (inner :: outer) = .ok s) {application : Application}
    (listed : application ∈ arena.inherited inner.definition) {id : ParameterId} {argument : TypeId}
    (passed : (id, argument) ∈ application.definition.parameters.zip application.arguments)
    (written : arena.WrittenIn inner.definition.parameters argument)
    (found : arena.lookup? type = some (.parameter id)) :
    arena.ResolvesTo s type (arena.substitute (inner :: outer) (arena.treeOf argument)) := by
  have apart := isChain.1.apart
  have among : id ∈ (arena.inherited inner.definition).flatMap (·.definition.parameters) :=
    List.mem_flatMap.2 ⟨application, listed, (List.of_mem_zip passed).1⟩
  have other : arena.lookup? argument ≠ some (.parameter id) := fun same =>
    (List.nodup_append.1 apart).2.2 id (written.mem_of_parameter same) id among rfl
  obtain ⟨around, outside, inside⟩ := bind_eq_ok.1 entered
  obtain ⟨made, bound, stands⟩ := Substitution.find?_enter inside id
  rw [Instantiation.lookup_inherited bound apart listed passed, if_neg other] at stands
  have limit : s.length ≤ maxResolutionSteps - 1 :=
    Nat.le_trans (length_enterAll_le entered) (by decide)
  by_cases open' : ∃ next, arena.lookup? argument = some (.parameter next)
  · obtain ⟨next, leads⟩ := open'
    obtain ⟨target, outer', visible, resolved, outside', binds⟩ :=
      exists_resolveWithin isChain entered (written.mem_of_parameter leads) limit
    have different : next ≠ id := by
      rintro rfl
      exact other leads
    have resolved : s.resolve arena id = .ok (target, visible) :=
      (Substitution.resolveWithin_of_parameter stands leads different).trans resolved
    rw [treeOf_parameter leads, binds.same]
    exact resolvesTo_parameter found resolved
      (resolvesTo_of_writtenIn ordered binds.isChain outside' binds.written)
  · have resolved : s.resolve arena id = .ok (argument, s) :=
      Substitution.resolveWithin_of_structural stands (not_exists.1 open')
    exact resolvesTo_parameter found resolved
      (resolvesTo_of_writtenIn ordered isChain entered written)

/-- Inside of nested references every type that is written in the parameters of the innermost
definition resolves to the type with the arguments put in place of the parameters, reference by
reference from the inside out, and every parameter of a definition that this one extends resolves as
the argument in the clause that extends it. -/
theorem resolvesTo_substitute (ordered : arena.IsOrdered) {inner : Application}
    {outer : List Application} (isChain : arena.IsChain (inner :: outer))
    (entered : Substitution.enterAll arena (inner :: outer) = .ok s) :
    (∀ type, arena.WrittenIn inner.definition.parameters type →
      arena.ResolvesTo s type (arena.substitute (inner :: outer) (arena.treeOf type))) ∧
    ∀ base ∈ inner.definition.bases, ∀ target arguments definition,
      arena.lookup? base = some (.reference target arguments) →
      arena.definition? target = some definition →
      ∀ id argument, (id, argument) ∈ definition.parameters.zip arguments →
      arena.WrittenIn inner.definition.parameters argument →
      ∀ type, arena.lookup? type = some (.parameter id) →
        arena.ResolvesTo s type (arena.substitute (inner :: outer) (arena.treeOf argument)) := by
  constructor
  · intro type written
    exact resolvesTo_of_writtenIn ordered isChain entered written
  · intro base inside target arguments definition leads known id argument passed written type found
    exact resolvesTo_inherited ordered isChain entered (mem_inherited inside leads known) passed
      written found

end Arena

/-! ## A definition that swaps its parameters -/

/-- `Pair<A, B>` has the body `A[] | B` and extends `Holder<A[]>`, a definition with the parameter
`C`. -/
def pairs : Arena where
  descriptors := Arena.initial.descriptors ++
    #[.parameter ⟨0⟩, .parameter ⟨1⟩, .parameter ⟨2⟩, .array ⟨14⟩, .reference ⟨0⟩ [⟨17⟩],
      .union [⟨17⟩, ⟨15⟩]]
  parameters := #[⟨"A", none⟩, ⟨"B", none⟩, ⟨"C", none⟩]
  definitions := #[⟨"Holder", [⟨2⟩], some ⟨16⟩, []⟩, ⟨"Pair", [⟨0⟩, ⟨1⟩], some ⟨19⟩, [⟨18⟩]⟩]

/-- The definition that is applied to itself. -/
def pair : Definition := ⟨"Pair", [⟨0⟩, ⟨1⟩], some ⟨19⟩, [⟨18⟩]⟩

/-- `Pair<A, B>` inside of `Pair<B, A>` inside of `Pair<string, number>`. -/
def nestedPairs : List Application :=
  [⟨pair, [⟨14⟩, ⟨15⟩]⟩, ⟨pair, [⟨15⟩, ⟨14⟩]⟩, ⟨pair, [.ofKeyword .string, .ofKeyword .number]⟩]

/-- In the innermost pair `A[] | B` is `number[] | string`, and `C` is `number[]`. -/
theorem resolvesTo_substitute_pairs :
    pairs.IsOrdered ∧ pairs.IsChain nestedPairs ∧
      ∃ s, Substitution.enterAll pairs nestedPairs = .ok s ∧
        pairs.ResolvesTo s ⟨19⟩ (.node (.union [⟨0⟩, ⟨0⟩])
          [.node (.array ⟨0⟩) [.node (.keyword .number) []], .node (.keyword .string) []]) ∧
        pairs.ResolvesTo s ⟨16⟩ (.node (.array ⟨0⟩) [.node (.keyword .number) []]) := by
  have ordered : pairs.IsOrdered := by decide
  have isChain : pairs.IsChain nestedPairs :=
    ⟨⟨rfl, by decide, by decide⟩, ⟨rfl, by decide, by decide⟩, ⟨rfl, by decide, by decide⟩, trivial⟩
  have entered : ∃ s, Substitution.enterAll pairs nestedPairs = .ok s := ⟨_, rfl⟩
  obtain ⟨s, entered⟩ := entered
  have both := Arena.resolvesTo_substitute ordered isChain entered
  exact ⟨ordered, isChain, s, entered, both.1 ⟨19⟩ (by decide),
    both.2 ⟨18⟩ (by decide) ⟨0⟩ [⟨17⟩] ⟨"Holder", [⟨2⟩], some ⟨16⟩, []⟩ rfl rfl ⟨2⟩ ⟨17⟩ (by decide)
      (by decide) ⟨16⟩ rfl⟩

end ShapeCheck
