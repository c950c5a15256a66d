import ShapeCheck.Descriptor.Combination
import ShapeCheck.Proofs.Documents.Expressions
import ShapeCheck.Proofs.Keeps

set_option autoImplicit false
-- a mutual induction uses its hypotheses in its first theorem alone
set_option linter.unusedSectionVars false

/-! # Steps of lowering

To enter an expression is to enter descriptors, one after another. So the arena grows, and what interning
keeps is kept; definitions and type parameters are left alone.

Main facts: `Lowering.keeps_lower` and `Lowering.frame_lower`.
-/

namespace ShapeCheck

namespace Arena

variable (a : Arena)

theorem definitions_intern (descriptor : Descriptor) :
    (a.intern descriptor).2.definitions = a.definitions := by
  unfold intern
  split <;> rfl

theorem parameters_intern (descriptor : Descriptor) :
    (a.intern descriptor).2.parameters = a.parameters := by
  unfold intern
  split <;> rfl

theorem definition?_modify_eq (id other : DefinitionId) (change : Definition → Definition) :
    { a with definitions := a.definitions.modify id.index change }.definition? other =
      if other = id then (a.definition? id).map change else a.definition? other := by
  simp only [definition?, Array.getElem?_modify]
  by_cases same : other = id
  · simp [same]
  · have different : id.index ≠ other.index := by
      intro equal
      apply same
      cases id
      cases other
      exact congrArg DefinitionId.mk equal.symm
    simp [same, different]

end Arena

namespace Lowering

variable {targets : Targets} {scope : Scope}

/-! ## What entering keeps -/

theorem keeps_onArena {α : Type} {I : Arena → Prop} {operation : Arena → α × Arena}
    (h : ∀ a, I a → I (operation a).2) : Keeps I (onArena operation) fun _ => True := by
  intro a x b made holds
  have kept := h a holds
  rw [gives_onArena.1 made] at kept
  exact ⟨kept, trivial⟩

section
variable {I : Arena → Prop} (step : ∀ a descriptor, I a → I (a.intern descriptor).2)
include step

theorem keeps_combine (kind : Combination) (members : List TypeId) :
    Keeps I (onArena fun arena => arena.combine kind members) fun _ => True := by
  refine keeps_onArena fun a holds => ?_
  rw [Arena.combine_eq]
  split
  · exact holds
  · exact holds
  · exact step a _ holds

theorem keeps_intern (descriptor : Descriptor) :
    Keeps I (onArena fun arena => arena.intern descriptor) fun _ => True :=
  keeps_onArena fun a holds => step a descriptor holds

mutual

/-- Entering an expression does nothing but to enter descriptors. -/
theorem keeps_lower (expr : TypeExpr) : Keeps I (lower targets scope expr) fun _ => True := by
  cases expr with
  | keyword | buffer | booleanLiteral =>
    simp only [lower]
    exact .pure trivial
  | stringLiteral | numberLiteral | view =>
    simp only [lower]
    exact keeps_intern step _
  | array element =>
    simp only [lower]
    exact (keeps_lower element).bind fun _ _ => keeps_intern step _
  | tuple elements =>
    simp only [lower]
    exact (keeps_lowerElements elements).bind fun _ _ => keeps_intern step _
  | object properties index =>
    simp only [lower]
    exact (keeps_lowerProperties properties).bind fun _ _ =>
      (keeps_lowerOption index).bind fun _ _ => keeps_intern step _
  | union members =>
    simp only [lower]
    exact (keeps_lowerAll members).bind fun _ _ => keeps_combine step .union _
  | intersection members =>
    simp only [lower]
    exact (keeps_lowerAll members).bind fun _ _ => keeps_combine step .intersection _
  | reference name arguments =>
    simp only [lower]
    split
    · exact .throw _
    · split
      · exact .throw _
      · exact (keeps_lowerAll arguments).bind fun _ _ => keeps_intern step _
  | parameter name =>
    simp only [lower]
    split
    · exact .throw _
    · exact .pure trivial
  | indexAccess whole key =>
    simp only [lower]
    exact (keeps_lower whole).bind fun _ _ => (keeps_lower key).bind fun _ _ => keeps_intern step _
  | keyof operand =>
    simp only [lower]
    exact (keeps_lower operand).bind fun _ _ => keeps_intern step _

theorem keeps_lowerAll (exprs : List TypeExpr) :
    Keeps I (lowerAll targets scope exprs) fun _ => True := by
  cases exprs with
  | nil =>
    simp only [lowerAll]
    exact .pure trivial
  | cons expr rest =>
    simp only [lowerAll]
    exact (keeps_lower expr).bind fun _ _ => (keeps_lowerAll rest).bind fun _ _ => .pure trivial

theorem keeps_lowerOption (expr? : Option TypeExpr) :
    Keeps I (lowerOption targets scope expr?) fun _ => True := by
  cases expr? with
  | none =>
    simp only [lowerOption]
    exact .pure trivial
  | some expr =>
    simp only [lowerOption]
    exact (keeps_lower expr).bind fun _ _ => .pure trivial

theorem keeps_lowerElements (elements : List (TypeExpr × Bool)) :
    Keeps I (lowerElements targets scope elements) fun _ => True := by
  cases elements with
  | nil =>
    simp only [lowerElements]
    exact .pure trivial
  | cons element rest =>
    obtain ⟨expr, optional⟩ := element
    simp only [lowerElements]
    exact (keeps_lower expr).bind fun _ _ => (keeps_lowerElements rest).bind fun _ _ => .pure trivial

theorem keeps_lowerProperties (properties : List (PropertyHead × Option TypeExpr)) :
    Keeps I (lowerProperties targets scope properties) fun _ => True := by
  cases properties with
  | nil =>
    simp only [lowerProperties]
    exact .pure trivial
  | cons property rest =>
    obtain ⟨head, expr?⟩ := property
    simp only [lowerProperties]
    exact (keeps_lowerOption expr?).bind fun _ _ =>
      (keeps_lowerProperties rest).bind fun _ _ => .pure trivial

end

end

/-! ## What entering leaves alone -/

section
variable {a b : Arena} {expr : TypeExpr} {type : TypeId}

/-- Entering an expression adds to the arena. -/
theorem extends_lower (made : Gives (lower targets scope expr) a type b) : a.Extends b :=
  (keeps_lower (I := a.Extends) (fun _ descriptor grown => grown.trans (Arena.extends_intern _ descriptor))
    expr a type b made (.refl a)).1

theorem storesOnce_lower (made : Gives (lower targets scope expr) a type b) (once : a.StoresOnce) :
    b.StoresOnce :=
  (keeps_lower (fun _ descriptor once => once.intern descriptor) expr a type b made once).1

theorem frame_lower (made : Gives (lower targets scope expr) a type b) :
    b.definitions = a.definitions ∧ b.parameters = a.parameters := by
  refine (keeps_lower (I := fun x => x.definitions = a.definitions ∧ x.parameters = a.parameters)
    ?_ expr a type b made ⟨rfl, rfl⟩).1
  intro x descriptor kept
  rw [Arena.definitions_intern, Arena.parameters_intern]
  exact kept

end

end Lowering

end ShapeCheck
