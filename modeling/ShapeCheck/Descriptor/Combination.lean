import ShapeCheck.Descriptor.Arena

set_option autoImplicit false

/-! # Unions and intersections alike

A union and an intersection are made of their members in the same way. They differ in the descriptor that
holds the members and in what stands for no member at all.

Main fact: `Arena.combine_eq`.
-/

namespace ShapeCheck

/-- The two ways to combine types into one. -/
inductive Combination
  | union
  | intersection
  deriving DecidableEq, Repr, Inhabited

namespace Combination

/-- The members that a descriptor of this kind holds. -/
def members? : Combination → Descriptor → Option (List TypeId)
  | union => Arena.unionMembers?
  | intersection => Arena.intersectionMembers?

/-- The descriptor of this kind that holds some members. -/
def descriptor : Combination → List TypeId → Descriptor
  | union => .union
  | intersection => .intersection

/-- What is made of no members. -/
def neutral : Combination → TypeId
  | union => .ofKeyword .never
  | intersection => .ofKeyword .unknown

theorem members?_eq_some_iff {c : Combination} {descriptor : Descriptor} {members : List TypeId} :
    c.members? descriptor = some members ↔ descriptor = c.descriptor members := by
  cases c <;> cases descriptor <;>
    simp [members?, Combination.descriptor, Arena.unionMembers?, Arena.intersectionMembers?]

theorem children_descriptor (c : Combination) (members : List TypeId) :
    (c.descriptor members).children = members := by
  cases c <;> rfl

theorem isBuiltin_neutral (c : Combination) : c.neutral.isBuiltin = true := by
  cases c <;> decide

end Combination

namespace Arena

/-- Makes one type of some members. -/
def combine (arena : Arena) : Combination → List TypeId → TypeId × Arena
  | .union => arena.union
  | .intersection => arena.intersection

theorem combine_eq (arena : Arena) (c : Combination) (members : List TypeId) :
    arena.combine c members =
      match arena.flatten c.members? members with
      | [] => (c.neutral, arena)
      | [member] => (member, arena)
      | members => arena.intern (c.descriptor members) := by
  cases c <;> rfl

end Arena

end ShapeCheck
