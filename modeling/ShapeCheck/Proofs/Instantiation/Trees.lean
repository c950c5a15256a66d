import ShapeCheck.Descriptor.Arena

set_option autoImplicit false

/-! # Types written out

A handle leads to a descriptor, and the handles in it to others. Written out, a type is a tree whose
leaves are its open parameters; to put trees in place of them is what instantiation has to amount to.

An arena hands out a handle after those of its children, so a type has a finite tree, which can be
computed within as many steps as its handle says.

Main facts: `Arena.treeOf_parameter` and `Arena.treeOf_node` (the two kinds of trees).
-/

namespace ShapeCheck

/-! ## Trees -/

/-- A type that is written out. A node holds what its descriptor says besides its handles, and the
trees of the handles in order. -/
inductive TypeTree
  | parameter (id : ParameterId)
  | node (head : Descriptor) (children : List TypeTree)

namespace TypeTree

mutual

/-- Puts trees in place of the open parameters, all at once. -/
def subst (assign : ParameterId → TypeTree) : TypeTree → TypeTree
  | parameter id => assign id
  | node head children => node head (substAll assign children)

/-- Puts trees in place of the open parameters of several types. -/
def substAll (assign : ParameterId → TypeTree) : List TypeTree → List TypeTree
  | [] => []
  | tree :: rest => tree.subst assign :: substAll assign rest

end

mutual

/-- The parameters that are left open. -/
def parameters : TypeTree → List ParameterId
  | parameter id => [id]
  | node _ children => parametersOfAll children

/-- The parameters that several types leave open. -/
def parametersOfAll : List TypeTree → List ParameterId
  | [] => []
  | tree :: rest => tree.parameters ++ parametersOfAll rest

end

theorem substAll_eq_map (assign : ParameterId → TypeTree) (trees : List TypeTree) :
    substAll assign trees = trees.map (subst assign) := by
  induction trees with
  | nil => rfl
  | cons tree rest ih => rw [substAll, ih, List.map_cons]

theorem parametersOfAll_eq_flatMap (trees : List TypeTree) :
    parametersOfAll trees = trees.flatMap parameters := by
  induction trees with
  | nil => rfl
  | cons tree rest ih => rw [parametersOfAll, ih, List.flatMap_cons]

end TypeTree

/-! ## Trees of handles -/

namespace Descriptor

/-- Replaces the handles that a descriptor holds. -/
def mapChildren (change : TypeId → TypeId) : Descriptor → Descriptor
  | array element => array (change element)
  | tuple elements => tuple (elements.map fun e => { e with type := change e.type })
  | object shape =>
    object ⟨shape.properties.map fun p => { p with type := p.type.map change },
      shape.index.map change⟩
  | union members => union (members.map change)
  | intersection members => intersection (members.map change)
  | reference target arguments => reference target (arguments.map change)
  | indexAccess whole key => indexAccess (change whole) (change key)
  | keyof operand => keyof (change operand)
  | descriptor => descriptor

/-- What a descriptor says besides its handles. -/
def head (descriptor : Descriptor) : Descriptor := descriptor.mapChildren fun _ => ⟨0⟩

/-- The descriptor is no parameter. -/
def IsStructural (descriptor : Descriptor) : Prop := ∀ id, descriptor ≠ .parameter id

end Descriptor

namespace Arena

/-- The children of a type were entered before the type. -/
def IsOrdered (arena : Arena) : Prop :=
  ∀ i, (inside : i < arena.descriptors.size) →
    ∀ child ∈ arena.descriptors[i].children, child.index < i

instance (arena : Arena) : Decidable arena.IsOrdered := by
  unfold IsOrdered
  infer_instance

/-- The tree of a type, cut off where the steps run out. -/
def treeWithin (arena : Arena) : Nat → TypeId → TypeTree
  | 0, _ => .node (.keyword .never) []
  | steps + 1, type =>
    match arena.lookup? type with
    | none => .node (.keyword .never) []
    | some (.parameter id) => .parameter id
    | some descriptor => .node descriptor.head (descriptor.children.map (treeWithin arena steps))

/-- The tree of a type of the arena. -/
def treeOf (arena : Arena) (type : TypeId) : TypeTree := arena.treeWithin (type.index + 1) type

/-- The type is one of the arena, and leaves only some parameters open. -/
def WrittenIn (arena : Arena) (parameters : List ParameterId) (type : TypeId) : Prop :=
  type.index < arena.descriptors.size ∧
    ∀ id ∈ (arena.treeOf type).parameters, id ∈ parameters

instance (arena : Arena) (parameters : List ParameterId) (type : TypeId) :
    Decidable (arena.WrittenIn parameters type) := by
  unfold WrittenIn
  infer_instance

variable {arena : Arena} {type : TypeId} {descriptor : Descriptor}

theorem IsOrdered.child_lt (ordered : arena.IsOrdered) (found : arena.lookup? type = some descriptor)
    {child : TypeId} (inside : child ∈ descriptor.children) : child.index < type.index := by
  obtain ⟨known, rfl⟩ := Array.getElem?_eq_some_iff.1 found
  exact ordered type.index known child inside

theorem index_lt_of_lookup? (found : arena.lookup? type = some descriptor) :
    type.index < arena.descriptors.size :=
  (Array.getElem?_eq_some_iff.1 found).1

theorem exists_lookup?_of_lt (known : type.index < arena.descriptors.size) :
    ∃ descriptor, arena.lookup? type = some descriptor :=
  ⟨_, Array.getElem?_eq_getElem known⟩

/-- Steps beyond the handle of the type change nothing. -/
theorem IsOrdered.treeWithin_eq (ordered : arena.IsOrdered) {steps steps' : Nat}
    (enough : type.index < steps) (enough' : type.index < steps') :
    arena.treeWithin steps type = arena.treeWithin steps' type := by
  induction steps generalizing type steps' with
  | zero => omega
  | succ steps ih =>
    obtain ⟨steps', rfl⟩ : ∃ n, steps' = n + 1 := ⟨steps' - 1, by omega⟩
    unfold treeWithin
    split
    · rfl
    · rfl
    · rename_i found
      refine congrArg (TypeTree.node _) (List.map_congr_left fun child inside => ?_)
      have smaller := ordered.child_lt found inside
      exact ih (by omega) (by omega)

theorem treeOf_parameter {id : ParameterId} (found : arena.lookup? type = some (.parameter id)) :
    arena.treeOf type = .parameter id := by
  rw [treeOf, treeWithin, found]

theorem treeOf_node (ordered : arena.IsOrdered) (found : arena.lookup? type = some descriptor)
    (structural : descriptor.IsStructural) :
    arena.treeOf type = .node descriptor.head (descriptor.children.map arena.treeOf) := by
  have children : descriptor.children.map (arena.treeWithin type.index) =
      descriptor.children.map arena.treeOf :=
    List.map_congr_left fun child inside =>
      ordered.treeWithin_eq (ordered.child_lt found inside) (Nat.lt_succ_self _)
  rw [treeOf, treeWithin, found, ← children]
  cases descriptor with
  | parameter id => exact absurd rfl (structural id)
  | _ => rfl

/-- The children of a type leave no more parameters open than the type. -/
theorem WrittenIn.child (ordered : arena.IsOrdered) {parameters : List ParameterId}
    (written : arena.WrittenIn parameters type) (found : arena.lookup? type = some descriptor)
    {child : TypeId} (inside : child ∈ descriptor.children) :
    arena.WrittenIn parameters child := by
  have structural : descriptor.IsStructural := by
    rintro id rfl
    cases inside
  have smaller := ordered.child_lt found inside
  refine ⟨Nat.lt_trans smaller written.1, fun id here => written.2 id ?_⟩
  rw [treeOf_node ordered found structural, TypeTree.parameters,
    TypeTree.parametersOfAll_eq_flatMap]
  exact List.mem_flatMap.2 ⟨_, List.mem_map_of_mem inside, here⟩

theorem WrittenIn.mem_of_parameter {parameters : List ParameterId} {id : ParameterId}
    (written : arena.WrittenIn parameters type)
    (found : arena.lookup? type = some (.parameter id)) : id ∈ parameters := by
  refine written.2 id ?_
  rw [treeOf_parameter found, TypeTree.parameters]
  exact List.mem_singleton_self id

end Arena

end ShapeCheck
