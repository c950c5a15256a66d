import Mathlib.Data.List.Forall2
import ShapeCheck.Compile.Naming

set_option autoImplicit false

/-! # Names and depth

A name is spelled within a depth. With a greater depth more types have names, but a type that has one
keeps it.

Main fact: `typeNameWithin_mono`.
-/

namespace ShapeCheck

/-! ## Related lists -/

section
variable {α β : Type} {R : α → β → Prop} {as : List α} {bs : List β}

theorem exists_left_of_forall₂ (h : List.Forall₂ R as bs) {b : β} (inside : b ∈ bs) :
    ∃ a ∈ as, R a b := by
  induction h with
  | nil => cases inside
  | @cons a b' as bs here _ ih =>
    rcases List.mem_cons.1 inside with rfl | inside
    · exact ⟨a, by simp, here⟩
    · obtain ⟨a', listed, related⟩ := ih inside
      exact ⟨a', by simp [listed], related⟩

theorem exists_right_of_forall₂ (h : List.Forall₂ R as bs) {a : α} (inside : a ∈ as) :
    ∃ b ∈ bs, R a b :=
  exists_left_of_forall₂ h.flip inside

end

/-! ## Results -/

section
variable {ε α β : Type}

theorem bind_eq_ok {m : Except ε α} {f : α → Except ε β} {b : β} :
    (m >>= f) = .ok b ↔ ∃ a, m = .ok a ∧ f a = .ok b := by
  cases m with
  | error e => simp [bind, Except.bind]
  | ok a => simp [bind, Except.bind]

theorem mapM_eq_ok {f : α → Except ε β} {as : List α} {bs : List β} :
    as.mapM f = .ok bs ↔ List.Forall₂ (fun a b => f a = .ok b) as bs := by
  induction as generalizing bs with
  | nil =>
    rw [List.mapM_nil, List.forall₂_nil_left_iff]
    exact ⟨fun h => (Except.ok.inj h).symm, fun h => h ▸ rfl⟩
  | cons a rest ih =>
    rw [List.mapM_cons, List.forall₂_cons_left_iff, bind_eq_ok]
    constructor
    · rintro ⟨b, here, below⟩
      obtain ⟨bs', found, made⟩ := bind_eq_ok.1 below
      exact ⟨b, bs', here, ih.1 found, (Except.ok.inj made).symm⟩
    · rintro ⟨b, bs', here, below, rfl⟩
      exact ⟨b, here, bind_eq_ok.2 ⟨bs', ih.2 below, rfl⟩⟩

/-- Whatever the first gives, the second gives as well. -/
def Extends (m n : Except ε α) : Prop := ∀ a, m = .ok a → n = .ok a

namespace Extends

theorem refl (m : Except ε α) : Extends m m := fun _ h => h

theorem bind {m n : Except ε α} {f g : α → Except ε β} (h : Extends m n)
    (h' : ∀ a, Extends (f a) (g a)) : Extends (m >>= f) (n >>= g) := by
  intro b made
  obtain ⟨a, first, second⟩ := bind_eq_ok.1 made
  exact bind_eq_ok.2 ⟨a, h a first, h' a b second⟩

theorem mapM {f g : α → Except ε β} (h : ∀ a, Extends (f a) (g a)) (as : List α) :
    Extends (as.mapM f) (as.mapM g) := by
  intro bs made
  exact mapM_eq_ok.2 ((mapM_eq_ok.1 made).imp fun a b => h a b)

end Extends

end

/-! ## Names of descriptors -/

section
variable {arena : Arena} {name name' : Substitution → Bool → TypeId → Except CompileError String}
  (le : ∀ s exact type, Extends (name s exact type) (name' s exact type))
include le

theorem Property.nameWith_extends (s : Substitution) (exact : Bool) (property : Property) :
    Extends (property.nameWith name s exact) (property.nameWith name' s exact) := by
  unfold Property.nameWith
  split
  · exact .refl _
  · split
    · exact (le s exact _).bind fun _ => .refl _
    · exact .refl _

theorem ObjectShape.nameWith_extends (s : Substitution) (exact : Bool) (shape : ObjectShape) :
    Extends (shape.nameWith name s exact) (shape.nameWith name' s exact) := by
  unfold ObjectShape.nameWith
  refine (Extends.mapM (Property.nameWith_extends le s exact) _).bind fun _ => ?_
  exact (Extends.mapM (fun type => (le s exact type).bind fun _ => .refl _) _).bind
    fun _ => .refl _

theorem referenceNameWith_extends (s : Substitution) (exact : Bool) (target : DefinitionId)
    (arguments : List TypeId) :
    Extends (referenceNameWith arena name s exact target arguments)
      (referenceNameWith arena name' s exact target arguments) := by
  unfold referenceNameWith
  dsimp only
  split
  · exact .refl _
  · split
    · exact .refl _
    · refine (Extends.mapM (fun argument => ?_) _).bind fun _ => .refl _
      exact (Extends.refl argument).bind (le s exact)

/-- More names of parts make more names. -/
theorem Descriptor.nameWith_extends (s : Substitution) (exact : Bool) (descriptor : Descriptor) :
    Extends (descriptor.nameWith arena name s exact) (descriptor.nameWith arena name' s exact) := by
  cases descriptor with
  | array element => exact (le s exact element).bind fun _ => .refl _
  | tuple elements =>
    refine (Extends.mapM (fun element => ?_) elements).bind fun _ => .refl _
    exact (le s exact element.type).bind fun _ => .refl _
  | object shape => exact (shape.nameWith_extends le s exact).bind fun _ => .refl _
  | union members => exact (Extends.mapM (le s exact) members).bind fun _ => .refl _
  | intersection members =>
    exact ((Extends.mapM (le s false) members).bind fun _ => .refl _).bind fun _ => .refl _
  | reference target arguments =>
    exact (referenceNameWith_extends le s exact target arguments).bind fun _ => .refl _
  | parameter id => exact (Extends.refl (s.resolve arena id)).bind fun found => le found.2 exact found.1
  | indexAccess whole key =>
    exact (le s false whole).bind fun _ => (le s false key).bind fun _ => .refl _
  | keyof operand => exact (le s false operand).bind fun _ => .refl _
  | _ => exact .refl _

end

/-! ## Names of types -/

theorem typeNameWithin_extends_succ (arena : Arena) (depth : Nat) (s : Substitution) (exact : Bool)
    (type : TypeId) :
    Extends (typeNameWithin arena depth s exact type)
      (typeNameWithin arena (depth + 1) s exact type) := by
  induction depth generalizing s exact type with
  | zero =>
    intro name made
    cases made
  | succ depth ih =>
    exact (Extends.refl (arena.lookup type)).bind fun descriptor =>
      descriptor.nameWith_extends ih s exact

/-- A name does not depend on the depth within which it is spelled. -/
theorem typeNameWithin_mono {arena : Arena} {depth depth' : Nat} (le : depth ≤ depth')
    (s : Substitution) (exact : Bool) (type : TypeId) :
    Extends (typeNameWithin arena depth s exact type)
      (typeNameWithin arena depth' s exact type) := by
  induction le with
  | refl => exact .refl _
  | step _ ih => exact fun name made => typeNameWithin_extends_succ arena _ s exact type name (ih name made)

end ShapeCheck
