import ShapeCheck.Proofs.Arenas.Combinations
import ShapeCheck.Proofs.Documents.Reading
import ShapeCheck.Proofs.Documents.Steps

set_option autoImplicit false
-- a mutual induction uses its hypotheses in its first theorem alone
set_option linter.unusedSectionVars false

/-! # Expressions that are entered

The type that an expression is entered as is meant by the normal form of the expression, in any arena that
has the built-in types and stores nothing twice. Whatever else such an arena holds does not matter.

Main fact: `Lowering.denotes_lower`.
-/

namespace ShapeCheck

namespace TypeExpr.Expresses

variable {names : Names} {R : TypeExpr → TypeId → Prop} {expr : TypeExpr} {descriptor : Descriptor}

/-- An expression and its descriptor have members of a kind together. -/
theorem members? (said : expr.Expresses names R descriptor) (c : Combination) :
    Option.Rel (List.Forall₂ R) (c.memberExprs? expr) (c.members? descriptor) := by
  cases said with
  | union parts =>
    cases c with
    | union => exact .some parts
    | intersection => exact .none
  | intersection parts =>
    cases c with
    | union => exact .none
    | intersection => exact .some parts
  | _ => cases c <;> exact .none

end TypeExpr.Expresses

namespace Arena

variable {names : Names} {a b : Arena} {expr : TypeExpr} {type : TypeId}

/-! ## Unions and intersections -/

/-- Members that hold no others are leaves already. -/
theorem leaves_of_leaves {c : Combination} {members : List TypeId}
    (h : ∀ member ∈ members, a.membersOf? c member = none) (depth : Nat) :
    a.leaves c.members? depth members = members := by
  cases depth with
  | zero => rfl
  | succ depth =>
    unfold leaves
    induction members with
    | nil => rfl
    | cons member rest ih =>
      rw [List.flatMap_cons, ih fun other later => h other (List.mem_cons_of_mem _ later)]
      have isLeaf : (a.lookup? member).bind c.members? = none := h member List.mem_cons_self
      simp only [isLeaf, List.singleton_append]

namespace Denotes

theorem membersOf? (h : a.Denotes names expr type) (c : Combination) :
    Option.Rel (List.Forall₂ (a.Denotes names)) (c.memberExprs? expr) (a.membersOf? c type) := by
  obtain ⟨descriptor, found, said⟩ := h.lookup
  rw [Arena.membersOf?, found]
  exact said.members? c

/-- Members in normal form have leaves that are meant by what they contribute. -/
theorem leaves {c : Combination} {exprs : List TypeExpr} {members : List TypeId}
    (h : List.Forall₂ (a.Denotes names) exprs members) (flat : ∀ expr ∈ exprs, expr.IsFlat)
    (depth : Nat) :
    List.Forall₂ (a.Denotes names) (exprs.flatMap c.spread) (a.leaves c.members? (depth + 1) members) := by
  unfold Arena.leaves
  induction h with
  | nil => exact .nil
  | @cons expr type exprs members here _ ih =>
    rw [List.flatMap_cons, List.flatMap_cons]
    refine List.rel_append ?_ (ih fun other later => flat other (List.mem_cons_of_mem _ later))
    have parts := here.membersOf? c
    have spread := (flat expr List.mem_cons_self).spread (c := c)
    unfold Arena.membersOf? at parts
    unfold Combination.spread at spread ⊢
    generalize c.memberExprs? expr = inner? at parts spread ⊢
    generalize (a.lookup? type).bind c.members? = inner?' at parts ⊢
    cases parts with
    | none => exact .cons here .nil
    | @some inner inner' parts =>
      have isLeaf : ∀ member ∈ inner', a.membersOf? c member = none := by
        intro member inside
        obtain ⟨leaf, among, meant⟩ := exists_left_of_forall₂ parts inside
        have alike := meant.membersOf? c
        rw [(spread leaf among).1] at alike
        generalize a.membersOf? c member = members? at alike ⊢
        cases alike
        rfl
      simp only [Option.getD_some, leaves_of_leaves isLeaf]
      exact parts

theorem intern {descriptor : Descriptor} (made : a.intern descriptor = (type, b))
    (said : expr.Expresses names (a.Denotes names) descriptor) : b.Denotes names expr type := by
  have found := lookup?_intern a descriptor
  have grown := extends_intern a descriptor
  rw [made] at found grown
  exact of_lookup found (said.imp fun _ _ part => part.mono grown)

/-- A built-in type is meant by its keyword. -/
theorem of_builtin (builtin : Arena.initial.Extends a) {descriptor : Descriptor}
    (found : Arena.initial.lookup? type = some descriptor)
    (said : expr.Expresses names (a.Denotes names) descriptor) : a.Denotes names expr type :=
  of_lookup (builtin.descriptors _ _ found) said

/-- What is made of members in normal form is meant by the normal form of their union or intersection. -/
theorem combine (oneToOne : names.AreOneToOne) (once : a.StoresOnce) (builtin : Arena.initial.Extends a)
    {c : Combination} {exprs : List TypeExpr} {members : List TypeId}
    (h : List.Forall₂ (a.Denotes names) exprs members) (flat : ∀ expr ∈ exprs, expr.IsFlat)
    (made : a.combine c members = (type, b)) : b.Denotes names (c.normalExpr exprs) type := by
  obtain ⟨rounds, size⟩ : ∃ rounds, a.descriptors.size = rounds + 1 := by
    have last : (⟨0⟩ : TypeId).index < Arena.initial.descriptors.size := by decide
    exact Nat.exists_eq_succ_of_ne_zero (Nat.ne_zero_of_lt (builtin.index_lt last))
  have related := forall₂_eraseDups (biUnique oneToOne once) (leaves (c := c) h flat rounds)
  rw [combine_eq, Arena.flatten, size] at made
  unfold Combination.normalExpr
  generalize (exprs.flatMap c.spread).eraseDups = left at related ⊢
  generalize (a.leaves c.members? (rounds + 1) members).eraseDups = right at related made
  cases related with
  | nil =>
    cases made
    cases c with
    | union => exact of_builtin builtin rfl (.keyword .never)
    | intersection => exact of_builtin builtin rfl (.keyword .unknown)
  | cons here rest =>
    cases rest with
    | nil =>
      cases made
      exact here
    | cons next others =>
      refine intern made ?_
      cases c with
      | union => exact .union (.cons here (.cons next others))
      | intersection => exact .intersection (.cons here (.cons next others))

end Denotes

end Arena

namespace Lowering

/-! ## Places -/

/-- Nothing is stored twice, the built-in types are there, and the names that are known lead to what is
meant by them. -/
structure Knows (names : Names) (targets : Targets) (scope : Scope) (a : Arena) : Prop where
  once : a.StoresOnce
  builtin : Arena.initial.Extends a
  targets : ∀ name target, targets.lookup name = some target → names.definitions name target.id
  scope : ∀ name type, scope.lookup name = some type →
    ∃ id, a.lookup? type = some (.parameter id) ∧ names.parameters name id

section
variable {names : Names} {targets : Targets} {scope : Scope} {a b : Arena}

theorem Knows.mono (knows : Knows names targets scope a) (grown : a.Extends b) (once : b.StoresOnce) :
    Knows names targets scope b where
  once := once
  builtin := knows.builtin.trans grown
  targets := knows.targets
  scope name type found := by
    obtain ⟨id, there, meant⟩ := knows.scope name type found
    exact ⟨id, grown.descriptors _ _ there, meant⟩

/-- What is changed besides descriptors once an expression has been entered does not matter. -/
theorem Knows.update {c : Arena} {expr : TypeExpr} {type : TypeId} (knows : Knows names targets scope a)
    (made : Gives (lower targets scope expr) a type b) (grown : b.Extends c)
    (same : c.descriptors = b.descriptors) : Knows names targets scope c := by
  refine knows.mono ((extends_lower made).trans grown) ?_
  unfold Arena.StoresOnce
  rw [same]
  exact storesOnce_lower made knows.once

/-- Steps that enter descriptors keep what is known. -/
theorem Knows.kept {α : Type} {m : Lowering α} {x : α} (knows : Knows names targets scope a)
    (keeps : Keeps (fun c => a.Extends c ∧ c.StoresOnce) m fun _ => True) (made : Gives m a x b) :
    Knows names targets scope b ∧ a.Extends b := by
  obtain ⟨⟨grown, once⟩, -⟩ := keeps a x b made ⟨.refl a, knows.once⟩
  exact ⟨knows.mono grown once, grown⟩

theorem grows_intern (a c : Arena) (descriptor : Descriptor) (h : a.Extends c ∧ c.StoresOnce) :
    a.Extends (c.intern descriptor).2 ∧ (c.intern descriptor).2.StoresOnce :=
  ⟨h.1.trans (Arena.extends_intern c descriptor), h.2.intern descriptor⟩

end

/-! ## Expressions -/

section
variable {names : Names} {targets : Targets} {scope : Scope} (oneToOne : names.AreOneToOne)
include oneToOne

mutual

/-- An expression is entered as the type that its normal form means. -/
theorem denotes_lower {a b : Arena} (expr : TypeExpr) {type : TypeId}
    (made : Gives (lower targets scope expr) a type b) (knows : Knows names targets scope a) :
    b.Denotes names expr.normalize type := by
  cases expr with
  | keyword word =>
    simp only [lower] at made
    obtain ⟨rfl, rfl⟩ := gives_pure.1 made
    exact .of_builtin knows.builtin (by cases word <;> rfl) (.keyword word)
  | buffer =>
    simp only [lower] at made
    obtain ⟨rfl, rfl⟩ := gives_pure.1 made
    exact .of_builtin knows.builtin rfl .buffer
  | booleanLiteral value =>
    simp only [lower] at made
    obtain ⟨rfl, rfl⟩ := gives_pure.1 made
    exact .of_builtin knows.builtin (by cases value <;> rfl) (.booleanLiteral value)
  | stringLiteral value =>
    simp only [lower] at made
    exact .intern (gives_onArena.1 made) (.stringLiteral value)
  | numberLiteral value =>
    simp only [lower] at made
    exact .intern (gives_onArena.1 made) (.numberLiteral value)
  | view kind =>
    simp only [lower] at made
    exact .intern (gives_onArena.1 made) (.view kind)
  | array element =>
    simp only [lower] at made
    obtain ⟨part, middle, first, made⟩ := gives_bind.1 made
    exact .intern (gives_onArena.1 made) (.array (denotes_lower element first knows))
  | tuple elements =>
    simp only [lower] at made
    obtain ⟨entries, middle, first, made⟩ := gives_bind.1 made
    exact .intern (gives_onArena.1 made) (.tuple (denotes_lowerElements elements first knows))
  | object properties index =>
    simp only [lower] at made
    obtain ⟨members, between, first, made⟩ := gives_bind.1 made
    obtain ⟨signature, middle, second, made⟩ := gives_bind.1 made
    obtain ⟨knows₁, -⟩ := knows.kept (keeps_lowerProperties (grows_intern a) properties) first
    obtain ⟨-, grown⟩ := knows₁.kept (keeps_lowerOption (grows_intern between) index) second
    have parts := denotes_lowerProperties properties first knows
    refine .intern (gives_onArena.1 made) (.object ?_ (denotes_lowerOption index second knows₁))
    exact parts.imp fun _ _ said => said.imp fun _ _ part => part.mono grown
  | union members =>
    simp only [lower] at made
    obtain ⟨types, middle, first, made⟩ := gives_bind.1 made
    obtain ⟨after, -⟩ := knows.kept (keeps_lowerAll (grows_intern a) members) first
    exact .combine (c := .union) oneToOne after.once after.builtin
      (denotes_lowerAll members first knows) (TypeExpr.isFlat_normalizeAll members) (gives_onArena.1 made)
  | intersection members =>
    simp only [lower] at made
    obtain ⟨types, middle, first, made⟩ := gives_bind.1 made
    obtain ⟨after, -⟩ := knows.kept (keeps_lowerAll (grows_intern a) members) first
    exact .combine (c := .intersection) oneToOne after.once after.builtin
      (denotes_lowerAll members first knows) (TypeExpr.isFlat_normalizeAll members) (gives_onArena.1 made)
  | reference name arguments =>
    simp only [lower] at made
    split at made
    · exact absurd made gives_throw
    · rename_i target found
      split at made
      · exact absurd made gives_throw
      · obtain ⟨types, middle, first, made⟩ := gives_bind.1 made
        exact .intern (gives_onArena.1 made)
          (.reference (knows.targets name target found) (denotes_lowerAll arguments first knows))
  | parameter name =>
    simp only [lower] at made
    split at made
    · exact absurd made gives_throw
    · rename_i known found
      obtain ⟨rfl, rfl⟩ := gives_pure.1 made
      obtain ⟨id, there, meant⟩ := knows.scope name _ found
      exact .of_lookup there (.parameter meant)
  | indexAccess whole key =>
    simp only [lower] at made
    obtain ⟨object, between, first, made⟩ := gives_bind.1 made
    obtain ⟨index, middle, second, made⟩ := gives_bind.1 made
    obtain ⟨knows₁, -⟩ := knows.kept (keeps_lower (grows_intern a) whole) first
    have grown := extends_lower second
    exact .intern (gives_onArena.1 made) (.indexAccess ((denotes_lower whole first knows).mono grown)
      (denotes_lower key second knows₁))
  | keyof operand =>
    simp only [lower] at made
    obtain ⟨part, middle, first, made⟩ := gives_bind.1 made
    exact .intern (gives_onArena.1 made) (.keyof (denotes_lower operand first knows))

theorem denotes_lowerAll {a b : Arena} (exprs : List TypeExpr) {types : List TypeId}
    (made : Gives (lowerAll targets scope exprs) a types b) (knows : Knows names targets scope a) :
    List.Forall₂ (b.Denotes names) (TypeExpr.normalizeAll exprs) types := by
  cases exprs with
  | nil =>
    simp only [lowerAll] at made
    obtain ⟨rfl, rfl⟩ := gives_pure.1 made
    exact .nil
  | cons expr rest =>
    simp only [lowerAll] at made
    obtain ⟨type, middle, first, made⟩ := gives_bind.1 made
    obtain ⟨others, _, second, made⟩ := gives_bind.1 made
    obtain ⟨rfl, rfl⟩ := gives_pure.1 made
    obtain ⟨knows₁, -⟩ := knows.kept (keeps_lower (grows_intern a) expr) first
    obtain ⟨-, grown⟩ := knows₁.kept (keeps_lowerAll (grows_intern middle) rest) second
    exact .cons ((denotes_lower expr first knows).mono grown) (denotes_lowerAll rest second knows₁)

theorem denotes_lowerOption {a b : Arena} (expr? : Option TypeExpr) {type? : Option TypeId}
    (made : Gives (lowerOption targets scope expr?) a type? b) (knows : Knows names targets scope a) :
    Option.Rel (b.Denotes names) (TypeExpr.normalizeOption expr?) type? := by
  cases expr? with
  | none =>
    simp only [lowerOption] at made
    obtain ⟨rfl, rfl⟩ := gives_pure.1 made
    exact .none
  | some expr =>
    simp only [lowerOption] at made
    obtain ⟨type, _, first, made⟩ := gives_bind.1 made
    obtain ⟨rfl, rfl⟩ := gives_pure.1 made
    exact .some (denotes_lower expr first knows)

theorem denotes_lowerElements {a b : Arena} (elements : List (TypeExpr × Bool))
    {entries : List TupleElement} (made : Gives (lowerElements targets scope elements) a entries b)
    (knows : Knows names targets scope a) :
    List.Forall₂ (TypeExpr.ElementExpresses (b.Denotes names)) (TypeExpr.normalizeElements elements)
      entries := by
  cases elements with
  | nil =>
    simp only [lowerElements] at made
    obtain ⟨rfl, rfl⟩ := gives_pure.1 made
    exact .nil
  | cons element rest =>
    obtain ⟨expr, optional⟩ := element
    simp only [lowerElements] at made
    obtain ⟨type, middle, first, made⟩ := gives_bind.1 made
    obtain ⟨others, _, second, made⟩ := gives_bind.1 made
    obtain ⟨rfl, rfl⟩ := gives_pure.1 made
    obtain ⟨knows₁, -⟩ := knows.kept (keeps_lower (grows_intern a) expr) first
    obtain ⟨-, grown⟩ := knows₁.kept (keeps_lowerElements (grows_intern middle) rest) second
    exact .cons ⟨(denotes_lower expr first knows).mono grown, rfl⟩
      (denotes_lowerElements rest second knows₁)

theorem denotes_lowerProperties {a b : Arena} (properties : List (PropertyHead × Option TypeExpr))
    {members : List Property} (made : Gives (lowerProperties targets scope properties) a members b)
    (knows : Knows names targets scope a) :
    List.Forall₂ (TypeExpr.PropertyExpresses (b.Denotes names)) (TypeExpr.normalizeProperties properties)
      members := by
  cases properties with
  | nil =>
    simp only [lowerProperties] at made
    obtain ⟨rfl, rfl⟩ := gives_pure.1 made
    exact .nil
  | cons property rest =>
    obtain ⟨head, expr?⟩ := property
    simp only [lowerProperties] at made
    obtain ⟨type?, middle, first, made⟩ := gives_bind.1 made
    obtain ⟨others, _, second, made⟩ := gives_bind.1 made
    obtain ⟨rfl, rfl⟩ := gives_pure.1 made
    obtain ⟨knows₁, -⟩ := knows.kept (keeps_lowerOption (grows_intern a) expr?) first
    obtain ⟨-, grown⟩ := knows₁.kept (keeps_lowerProperties (grows_intern middle) rest) second
    refine .cons ⟨rfl, ?_⟩ (denotes_lowerProperties rest second knows₁)
    exact optionRel_imp (denotes_lowerOption expr? first knows) fun _ _ part => part.mono grown

end

end

end Lowering

end ShapeCheck
