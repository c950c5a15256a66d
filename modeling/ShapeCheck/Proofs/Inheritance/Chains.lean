import ShapeCheck.Compile.Composite
import ShapeCheck.Proofs.Meaning.Keys

set_option autoImplicit false

/-! # The shapes behind a definition

A definition that extends others is checked as one object with the members of all of them. The tree of
the definitions that it extends, read from the definition itself downwards and from the first base to the
last, is a list of shapes, and the merged shape is what is found by searching this list: a member is
that of the first shape that declares its name, and the index signature is the first one there is.

Main fact: `mergedShapeWithin_search`.
-/

namespace ShapeCheck

/-! ## The list of shapes -/

namespace Arena

variable (arena : Arena)

/-- The shape that a definition declares itself. -/
def ownShape? (definition : Definition) : Option ObjectShape :=
  definition.body.bind fun body =>
    match arena.lookup? body with
    | some (.object shape) => some shape
    | _ => none

/-- The definition that a base refers to. -/
def baseOf? (base : TypeId) : Option Definition :=
  match arena.lookup? base with
  | some (.reference target _) => arena.definition? target
  | _ => none

/-- The shapes of a definition and of those that it extends, the nearest first, for a number of steps.
-/
def shapesWithin : Nat → Definition → List ObjectShape
  | 0, _ => []
  | steps + 1, definition =>
    (arena.ownShape? definition).toList ++ definition.bases.flatMap fun base =>
      (arena.baseOf? base).elim [] (shapesWithin steps)

/-- The shapes of a definition and of those that it extends, the nearest first. -/
def shapes (definition : Definition) : List ObjectShape :=
  arena.shapesWithin maxResolutionSteps definition

/-- The shapes that a definition inherits through a base. -/
def baseShapes (steps : Nat) (base : TypeId) : List ObjectShape :=
  (arena.baseOf? base).elim [] (arena.shapesWithin steps)

end Arena

/-! ## Merging -/

theorem ObjectShape.property?_inherit (shape inherited : ObjectShape) (name : String) :
    (shape.inherit inherited).property? name = (shape.property? name).or (inherited.property? name) := by
  -- on the inherited members: one whose name is known changes nothing, another one comes last
  have folded (added known : List Property) :
      (added.foldl (fun known property =>
          if known.any (·.name == property.name) then known else known ++ [property]) known).find?
        (·.name == name) = (known.find? (·.name == name)).or (added.find? (·.name == name)) := by
    induction added generalizing known with
    | nil => simp
    | cons property rest ih =>
      rw [List.foldl_cons, ih, List.find?_cons]
      by_cases same : property.name = name
      · subst same
        by_cases taken : known.any (·.name == property.name) = true
        · obtain ⟨found, isFirst⟩ : ∃ found, known.find? (·.name == property.name) = some found := by
            refine Option.isSome_iff_exists.1 ?_
            rwa [List.find?_isSome, ← List.any_eq_true]
          simp [taken, isFirst]
        · have absent : known.find? (·.name == property.name) = none := by
            simpa [List.find?_eq_none] using taken
          simp [taken, List.find?_append, absent]
      · have other : (property.name == name) = false := beq_eq_false_iff_ne.2 same
        by_cases taken : known.any (·.name == property.name) = true
        · simp [taken, other]
        · simp [taken, List.find?_append, other]
  exact folded inherited.properties shape.properties

theorem ObjectShape.index_inherit (shape inherited : ObjectShape) :
    (shape.inherit inherited).index = shape.index.or inherited.index := by
  unfold ObjectShape.inherit
  cases shape.index <;> rfl

/-- A shape is found by searching others: for every name and for the index signature, the first of them
that has something to say decides. -/
structure ObjectShape.IsSearch (shape : ObjectShape) (shapes : List ObjectShape) : Prop where
  property? : ∀ name, shape.property? name = shapes.findSome? (·.property? name)
  index : shape.index = shapes.findSome? ObjectShape.index

namespace ObjectShape.IsSearch

variable {shape inherited : ObjectShape} {shapes shapes' : List ObjectShape}

theorem self (shape : ObjectShape) : shape.IsSearch [shape] where
  property? name := by cases h : shape.property? name <;> simp [h]
  index := by cases h : shape.index <;> simp [h]

theorem inherit (first : shape.IsSearch shapes) (second : inherited.IsSearch shapes') :
    (shape.inherit inherited).IsSearch (shapes ++ shapes') where
  property? name := by
    rw [property?_inherit, first.property?, second.property?, List.findSome?_append]
  index := by rw [index_inherit, first.index, second.index, List.findSome?_append]

end ObjectShape.IsSearch

/-! ## The merged shape -/

/-- Merges the members that are inherited through a base into a shape, for a number of steps. -/
def Arena.inheritBase (arena : Arena) (steps : Nat) (shape : ObjectShape) (base : TypeId) :
    Except CompileError ObjectShape :=
  match arena.lookup? base with
  | some (.reference target _) => do
    let inherited ← mergedShapeWithin arena steps (← arena.target base target)
    return shape.inherit inherited
  | _ => throw (.unsupportedType base "base that is not a type reference")

section
variable {arena : Arena} {definition : Definition} {shape : ObjectShape}

/-- A definition has a merged shape only if it declares a shape itself, into which its bases can be
merged. -/
theorem mergedShapeWithin_eq_ok {steps : Nat}
    (merged : mergedShapeWithin arena (steps + 1) definition = .ok shape) :
    ∃ body own, definition.body = some body ∧ arena.lookup? body = some (.object own) ∧
      definition.bases.foldlM (arena.inheritBase steps) own = .ok shape := by
  unfold mergedShapeWithin at merged
  obtain ⟨body, given, merged⟩ := bind_eq_ok.1 merged
  rw [Definition.requireBody_eq_ok] at given
  split at merged
  · rename_i own found
    exact ⟨body, own, given, found, merged⟩
  · cases merged

/-- Only a reference to a definition with a merged shape can be merged. -/
theorem inheritBase_eq_ok {steps : Nat} {base : TypeId} {before after : ObjectShape}
    (made : arena.inheritBase steps before base = .ok after) :
    ∃ target arguments inner inherited, arena.lookup? base = some (.reference target arguments) ∧
      arena.definition? target = some inner ∧ mergedShapeWithin arena steps inner = .ok inherited ∧
        after = before.inherit inherited := by
  unfold Arena.inheritBase at made
  split at made
  · rename_i target arguments found
    obtain ⟨inner, known, made⟩ := bind_eq_ok.1 made
    obtain ⟨inherited, merged, made⟩ := bind_eq_ok.1 made
    rw [Arena.target_eq_ok] at known
    exact ⟨target, arguments, inner, inherited, found, known, merged, (Except.ok.inj made).symm⟩
  · cases made

/-- The shapes of a definition are its own and those behind its bases. -/
theorem shapesWithin_succ {body : TypeId} {own : ObjectShape} (given : definition.body = some body)
    (found : arena.lookup? body = some (.object own)) (steps : Nat) :
    arena.shapesWithin (steps + 1) definition =
      own :: definition.bases.flatMap (arena.baseShapes steps) := by
  have declared : arena.ownShape? definition = some own := by
    simp [Arena.ownShape?, given, found]
  rw [Arena.shapesWithin, declared]
  rfl

theorem baseShapes_of_reference {base : TypeId} {target : DefinitionId} {arguments : List TypeId}
    {inner : Definition} (leads : arena.lookup? base = some (.reference target arguments))
    (known : arena.definition? target = some inner) (steps : Nat) :
    arena.baseShapes steps base = arena.shapesWithin steps inner := by
  have isBase : arena.baseOf? base = some inner := by
    rw [Arena.baseOf?, leads]
    exact known
  rw [Arena.baseShapes, isBase, Option.elim_some]

/-- The merged shape is what is found by searching the shapes of the definition and of all that it
extends, the nearest first. -/
theorem mergedShapeWithin_search {steps : Nat}
    (merged : mergedShapeWithin arena steps definition = .ok shape) :
    shape.IsSearch (arena.shapesWithin steps definition) := by
  induction steps generalizing definition shape with
  | zero => cases merged
  | succ steps ih =>
    obtain ⟨body, own, given, found, folded⟩ := mergedShapeWithin_eq_ok merged
    rw [shapesWithin_succ given found]
    -- on the bases that are left: what was merged before is a search of what stands before them
    have bases (left : List TypeId) (before : ObjectShape) (shapes : List ObjectShape)
        (search : before.IsSearch shapes)
        (folded : left.foldlM (arena.inheritBase steps) before = .ok shape) :
        shape.IsSearch (shapes ++ left.flatMap (arena.baseShapes steps)) := by
      induction left generalizing before shapes with
      | nil =>
        cases folded
        simpa using search
      | cons base rest onwards =>
        rw [List.foldlM_cons] at folded
        obtain ⟨after, made, folded⟩ := bind_eq_ok.1 folded
        obtain ⟨target, arguments, inner, inherited, leads, known, below, rfl⟩ := inheritBase_eq_ok made
        rw [List.flatMap_cons, baseShapes_of_reference leads known, ← List.append_assoc]
        exact onwards _ _ (search.inherit (ih below)) folded
    exact bases definition.bases own [own] (.self own) folded

/-- Every base of a definition with a merged shape is a reference to another one. -/
theorem exists_merged_of_mem_bases {steps : Nat} {base : TypeId}
    (merged : mergedShapeWithin arena (steps + 1) definition = .ok shape)
    (inside : base ∈ definition.bases) :
    ∃ target arguments inner inherited, arena.lookup? base = some (.reference target arguments) ∧
      arena.definition? target = some inner ∧ mergedShapeWithin arena steps inner = .ok inherited := by
  obtain ⟨-, own, -, -, folded⟩ := mergedShapeWithin_eq_ok merged
  have bases (left : List TypeId) (before : ObjectShape) (inside : base ∈ left)
      (folded : left.foldlM (arena.inheritBase steps) before = .ok shape) :
      ∃ target arguments inner inherited, arena.lookup? base = some (.reference target arguments) ∧
        arena.definition? target = some inner ∧
          mergedShapeWithin arena steps inner = .ok inherited := by
    induction left generalizing before with
    | nil => cases inside
    | cons first rest onwards =>
      rw [List.foldlM_cons] at folded
      obtain ⟨after, made, folded⟩ := bind_eq_ok.1 folded
      rcases List.mem_cons.1 inside with rfl | later
      · obtain ⟨target, arguments, inner, inherited, leads, known, below, -⟩ := inheritBase_eq_ok made
        exact ⟨target, arguments, inner, inherited, leads, known, below⟩
      · exact onwards after later folded
  exact bases definition.bases own inside folded

end

end ShapeCheck
