import ShapeCheck.Document.Lowering
import ShapeCheck.Proofs.Documents.Arenas
import ShapeCheck.Proofs.Outcome

set_option autoImplicit false

/-! # Lowered expressions

An expression is entered with the parameters of the definition around it in scope, so the type that comes
out is written in these parameters. Its references lead to definitions that have been declared before
any expression is entered.

Main fact: `Lowering.entered_lower`.
-/

namespace ShapeCheck

/-! ## References of a document -/

namespace TypeExpr

mutual

/-- The references in an expression, each with the number of its arguments. -/
def references : TypeExpr → List (String × Nat)
  | .array element => element.references
  | .tuple elements => referencesOfElements elements
  | .object properties index => referencesOfProperties properties ++ referencesOfOption index
  | .union members => referencesOfAll members
  | .intersection members => referencesOfAll members
  | .reference target arguments => (target, arguments.length) :: referencesOfAll arguments
  | .indexAccess whole key => whole.references ++ key.references
  | .keyof operand => operand.references
  | _ => []

/-- The references in several expressions. -/
def referencesOfAll : List TypeExpr → List (String × Nat)
  | [] => []
  | expr :: rest => expr.references ++ referencesOfAll rest

/-- The references in an expression that may be missing. -/
def referencesOfOption : Option TypeExpr → List (String × Nat)
  | none => []
  | some expr => expr.references

/-- The references in the positions of a tuple. -/
def referencesOfElements : List (TypeExpr × Bool) → List (String × Nat)
  | [] => []
  | (expr, _) :: rest => expr.references ++ referencesOfElements rest

/-- The references in the members of an object. -/
def referencesOfProperties : List (PropertyHead × Option TypeExpr) → List (String × Nat)
  | [] => []
  | (_, expr) :: rest => referencesOfOption expr ++ referencesOfProperties rest

end

end TypeExpr

/-- The references in a definition: in the defaults of its parameters, in its bases and its body. -/
def DefinitionDecl.references (decl : DefinitionDecl) : List (String × Nat) :=
  decl.parameters.flatMap (fun parameter => TypeExpr.referencesOfOption parameter.default) ++
    decl.bases.flatMap TypeExpr.references ++ decl.body.references

/-- The references in a document. -/
def Document.references (document : Document) : List (String × Nat) :=
  document.definitions.flatMap DefinitionDecl.references ++ document.root.references

/-- Every reference passes all the arguments that its target declares. -/
def Document.PassesAll (document : Document) : Prop :=
  ∀ reference ∈ document.references, ∀ decl ∈ document.definitions, decl.name = reference.1 →
    decl.parameters.length ≤ reference.2

namespace Lowering

variable {full : Prop} {targets : Targets} {ids : List DefinitionId} {parameters : List ParameterId}
  {scope : Scope} {a b c : Arena}

/-! ## Stages -/

/-- The arena is sound, references find their targets, and the declared definitions are known. -/
structure Stage (full : Prop) (targets : Targets) (ids : List DefinitionId) (a : Arena) : Prop where
  sound : a.IsSound full
  targets : ∀ name target, targets.lookup name = some target →
    ∃ definition, a.definition? target.id = some definition ∧
      definition.parameters.length = target.arity
  declared : ∀ id definition, a.definition? id = some definition → id ∈ ids

/-- The types of the names in scope are written in some parameters. -/
def InScope (parameters : List ParameterId) (scope : Scope) (a : Arena) : Prop :=
  ∀ name type, scope.lookup name = some type → a.WrittenIn parameters type

/-- References among these pass all arguments, where that is asked. -/
def Pass (full : Prop) (targets : Targets) (references : List (String × Nat)) : Prop :=
  full → ∀ reference ∈ references, ∀ target, targets.lookup reference.1 = some target →
    target.arity ≤ reference.2

theorem Pass.of_subset {references references' : List (String × Nat)}
    (pass : Pass full targets references) (fewer : ∀ r ∈ references', r ∈ references) :
    Pass full targets references' :=
  fun given reference inside => pass given reference (fewer reference inside)

theorem InScope.extends (inScope : InScope parameters scope a) (ordered : a.IsOrdered)
    (grown : a.Extends b) : InScope parameters scope b :=
  fun name type found => grown.writtenIn ordered (inScope name type found)

/-- A step that keeps the definitions leads to the same stage. -/
theorem Stage.of_definitions_eq (stage : Stage full targets ids a) (sound : b.IsSound full)
    (same : ∀ id, b.definition? id = a.definition? id) : Stage full targets ids b where
  sound := sound
  targets name target found := by
    obtain ⟨definition, known, arity⟩ := stage.targets name target found
    exact ⟨definition, by rw [same, known], arity⟩
  declared id definition known := stage.declared id definition (by rw [← same, known])

/-- From one arena to another one some types have been entered. -/
structure Entered (full : Prop) (targets : Targets) (ids : List DefinitionId)
    (parameters : List ParameterId) (a b : Arena) (types : List TypeId) : Prop where
  stage : Stage full targets ids b
  grown : a.Extends b
  written : ∀ type ∈ types, b.WrittenIn parameters type

theorem Entered.nothing (stage : Stage full targets ids a) :
    Entered full targets ids parameters a a [] :=
  ⟨stage, .refl a, nofun⟩

theorem Entered.append {types types' : List TypeId}
    (first : Entered full targets ids parameters a b types)
    (second : Entered full targets ids parameters b c types') :
    Entered full targets ids parameters a c (types ++ types') where
  stage := second.stage
  grown := first.grown.trans second.grown
  written type inside := by
    rcases List.mem_append.1 inside with inside | inside
    · exact second.grown.writtenIn first.stage.sound.ordered (first.written type inside)
    · exact second.written type inside

theorem gives_onArena {α : Type} {operation : Arena → α × Arena} {x : α} :
    Gives (onArena operation) a x b ↔ operation a = (x, b) := by
  show ((Except.ok (operation a).1, (operation a).2) : Except DocumentError α × Arena) = (.ok x, b) ↔ _
  constructor
  · intro h
    simp only [Prod.mk.injEq, Except.ok.injEq] at h
    exact Prod.ext h.1 h.2
  · intro h
    rw [h]

/-- Entering a descriptor whose parts have been entered. -/
theorem Entered.intern {types : List TypeId} {descriptor : Descriptor} {type : TypeId}
    (entered : Entered full targets ids parameters a b types)
    (made : Gives (onArena fun arena => arena.intern descriptor) b type c)
    (structural : descriptor.IsStructural) (parts : ∀ child ∈ descriptor.children, child ∈ types)
    (applies : ∀ target arguments, descriptor = .reference target arguments →
      b.Applies full target arguments) : Entered full targets ids parameters a c [type] := by
  have made : b.intern descriptor = (type, c) := gives_onArena.1 made
  have written (child : TypeId) (inside : child ∈ descriptor.children) :
      b.WrittenIn parameters child := entered.written child (parts child inside)
  have sound := entered.stage.sound.intern (fun child inside => (written child inside).1) applies
  have here := entered.stage.sound.writtenIn_intern structural written applies
  have grown := Arena.extends_intern b descriptor
  have same := Arena.definition?_intern b descriptor
  rw [made] at sound here grown same
  refine ⟨entered.stage.of_definitions_eq sound same, entered.grown.trans grown, ?_⟩
  intro other inside
  obtain rfl := List.mem_singleton.1 inside
  exact here

/-- Entering the flattened list of members that have been entered. -/
theorem Entered.flatten {members : List TypeId} {nested : Descriptor → Option (List TypeId)}
    {empty : TypeId} {combine : List TypeId → Descriptor} {type : TypeId}
    (entered : Entered full targets ids parameters a b members)
    (made : (match b.flatten nested members with
      | [] => (empty, b)
      | [member] => (member, b)
      | members => b.intern (combine members)) = (type, c))
    (isPart : ∀ descriptor inner, nested descriptor = some inner → inner ⊆ descriptor.children)
    (builtin : empty.isBuiltin = true)
    (combined : ∀ members, (combine members).IsStructural ∧ (combine members).children = members ∧
      ∀ target arguments, combine members ≠ .reference target arguments) :
    Entered full targets ids parameters a c [type] := by
  have leaves := Arena.writtenIn_flatten entered.stage.sound.ordered isPart entered.written
  have flat : Entered full targets ids parameters a b (b.flatten nested members) :=
    ⟨entered.stage, entered.grown, leaves⟩
  split at made
  · cases made
    refine ⟨flat.stage, flat.grown, fun other inside => ?_⟩
    obtain rfl := List.mem_singleton.1 inside
    exact flat.stage.sound.writtenIn_builtin builtin parameters
  · rename_i member single
    cases made
    exact ⟨flat.stage, flat.grown, by rw [← single]; exact leaves⟩
  · obtain ⟨structural, children, noReference⟩ := combined (b.flatten nested members)
    exact flat.intern (gives_onArena.2 made) structural (by rw [children]; exact fun _ inside => inside)
      fun target arguments same => absurd same (noReference target arguments)

/-! ## Expressions -/

/-- A type that is there from the start. -/
theorem Entered.builtin {type : TypeId} (stage : Stage full targets ids a)
    (builtin : type.isBuiltin = true) : Entered full targets ids parameters a a [type] := by
  refine ⟨stage, .refl a, fun other inside => ?_⟩
  obtain rfl := List.mem_singleton.1 inside
  exact stage.sound.writtenIn_builtin builtin parameters

theorem isBuiltin_ofKeyword (word : Keyword) : (TypeId.ofKeyword word).isBuiltin = true := by
  cases word <;> rfl

theorem length_lowerAll (exprs : List TypeExpr) {types : List TypeId}
    (made : Gives (lowerAll targets scope exprs) a types b) : types.length = exprs.length := by
  induction exprs generalizing a types with
  | nil =>
    simp only [lowerAll] at made
    obtain ⟨rfl, rfl⟩ := gives_pure.1 made
    rfl
  | cons expr rest ih =>
    simp only [lowerAll] at made
    obtain ⟨type, middle, -, made⟩ := gives_bind.1 made
    obtain ⟨others, _, second, made⟩ := gives_bind.1 made
    obtain ⟨rfl, rfl⟩ := gives_pure.1 made
    rw [List.length_cons, List.length_cons, ih second]

mutual

/-- Entering an expression keeps the stage, and the type is written in the parameters in scope. -/
theorem entered_lower {a b : Arena} (expr : TypeExpr) (pass : Pass full targets expr.references) {type : TypeId}
    (made : Gives (lower targets scope expr) a type b) (stage : Stage full targets ids a)
    (inScope : InScope parameters scope a) : Entered full targets ids parameters a b [type] := by
  -- most expressions enter their parts and then one descriptor for the whole
  cases expr with
  | keyword word =>
    simp only [lower] at made
    obtain ⟨rfl, rfl⟩ := gives_pure.1 made
    exact .builtin stage (isBuiltin_ofKeyword word)
  | buffer =>
    simp only [lower] at made
    obtain ⟨rfl, rfl⟩ := gives_pure.1 made
    exact .builtin stage rfl
  | booleanLiteral value =>
    simp only [lower] at made
    obtain ⟨rfl, rfl⟩ := gives_pure.1 made
    exact .builtin stage (by cases value <;> rfl)
  | stringLiteral | numberLiteral | view =>
    simp only [lower] at made
    exact (Entered.nothing stage).intern made nofun nofun nofun
  | array element =>
    simp only [lower] at made
    obtain ⟨part, middle, first, made⟩ := gives_bind.1 made
    have entered := entered_lower element (pass.of_subset fun _ inside => inside) first stage inScope
    exact entered.intern made nofun (fun _ inside => inside) nofun
  | tuple elements =>
    simp only [lower] at made
    obtain ⟨parts, middle, first, made⟩ := gives_bind.1 made
    have entered := entered_lowerElements elements (pass.of_subset fun _ inside => inside) first stage
      inScope
    exact entered.intern made nofun (fun _ inside => inside) nofun
  | object properties index =>
    simp only [lower] at made
    obtain ⟨members, between, first, made⟩ := gives_bind.1 made
    obtain ⟨signature, middle, second, made⟩ := gives_bind.1 made
    have entered := entered_lowerProperties properties
      (pass.of_subset fun _ inside => List.mem_append_left _ inside) first stage inScope
    have further := entered_lowerOption index
      (pass.of_subset fun _ inside => List.mem_append_right _ inside) second entered.stage
      (inScope.extends stage.sound.ordered entered.grown)
    exact (entered.append further).intern made nofun (fun _ inside => inside) nofun
  | union members =>
    simp only [lower] at made
    obtain ⟨parts, middle, first, made⟩ := gives_bind.1 made
    have entered := entered_lowerAll members (pass.of_subset fun _ inside => inside) first stage inScope
    exact entered.flatten (gives_onArena.1 made) Arena.unionMembers?_subset rfl
      fun members => ⟨nofun, rfl, nofun⟩
  | intersection members =>
    simp only [lower] at made
    obtain ⟨parts, middle, first, made⟩ := gives_bind.1 made
    have entered := entered_lowerAll members (pass.of_subset fun _ inside => inside) first stage inScope
    exact entered.flatten (gives_onArena.1 made) Arena.intersectionMembers?_subset rfl
      fun members => ⟨nofun, rfl, nofun⟩
  | reference name arguments =>
    simp only [lower] at made
    split at made
    · exact absurd made gives_throw
    · rename_i target found
      split at made
      · exact absurd made gives_throw
      · obtain ⟨parts, middle, first, made⟩ := gives_bind.1 made
        have entered := entered_lowerAll arguments
          (pass.of_subset fun _ inside => List.mem_cons_of_mem _ inside) first stage inScope
        refine entered.intern made nofun (fun _ inside => inside) ?_
        rintro _ _ ⟨⟩
        obtain ⟨definition, known, arity⟩ := entered.stage.targets name target found
        refine ⟨definition, known, fun given => ?_⟩
        rw [arity, length_lowerAll arguments first]
        exact pass given (name, arguments.length) List.mem_cons_self target found
  | parameter name =>
    simp only [lower] at made
    split at made
    · exact absurd made gives_throw
    · rename_i known found
      obtain ⟨rfl, rfl⟩ := gives_pure.1 made
      refine ⟨stage, .refl a, fun other inside => ?_⟩
      obtain rfl := List.mem_singleton.1 inside
      exact inScope name _ found
  | indexAccess whole key =>
    simp only [lower] at made
    obtain ⟨object, between, first, made⟩ := gives_bind.1 made
    obtain ⟨index, middle, second, made⟩ := gives_bind.1 made
    have entered := entered_lower whole
      (pass.of_subset fun _ inside => List.mem_append_left _ inside) first stage inScope
    have further := entered_lower key
      (pass.of_subset fun _ inside => List.mem_append_right _ inside) second entered.stage
      (inScope.extends stage.sound.ordered entered.grown)
    exact (entered.append further).intern made nofun (fun _ inside => inside) nofun
  | keyof operand =>
    simp only [lower] at made
    obtain ⟨part, middle, first, made⟩ := gives_bind.1 made
    have entered := entered_lower operand (pass.of_subset fun _ inside => inside) first stage inScope
    exact entered.intern made nofun (fun _ inside => inside) nofun

theorem entered_lowerAll {a b : Arena} (exprs : List TypeExpr)
    (pass : Pass full targets (TypeExpr.referencesOfAll exprs)) {types : List TypeId}
    (made : Gives (lowerAll targets scope exprs) a types b) (stage : Stage full targets ids a)
    (inScope : InScope parameters scope a) : Entered full targets ids parameters a b types := by
  cases exprs with
  | nil =>
    simp only [lowerAll] at made
    obtain ⟨rfl, rfl⟩ := gives_pure.1 made
    exact .nothing stage
  | cons expr rest =>
    simp only [lowerAll] at made
    obtain ⟨type, middle, first, made⟩ := gives_bind.1 made
    obtain ⟨others, _, second, made⟩ := gives_bind.1 made
    obtain ⟨rfl, rfl⟩ := gives_pure.1 made
    have entered := entered_lower expr
      (pass.of_subset fun _ inside => List.mem_append_left _ inside) first stage inScope
    exact entered.append (entered_lowerAll rest
      (pass.of_subset fun _ inside => List.mem_append_right _ inside) second entered.stage
      (inScope.extends stage.sound.ordered entered.grown))

theorem entered_lowerOption {a b : Arena} (expr? : Option TypeExpr)
    (pass : Pass full targets (TypeExpr.referencesOfOption expr?)) {type? : Option TypeId}
    (made : Gives (lowerOption targets scope expr?) a type? b) (stage : Stage full targets ids a)
    (inScope : InScope parameters scope a) :
    Entered full targets ids parameters a b type?.toList := by
  cases expr? with
  | none =>
    simp only [lowerOption] at made
    obtain ⟨rfl, rfl⟩ := gives_pure.1 made
    exact .nothing stage
  | some expr =>
    simp only [lowerOption] at made
    obtain ⟨type, _, first, made⟩ := gives_bind.1 made
    obtain ⟨rfl, rfl⟩ := gives_pure.1 made
    exact entered_lower expr pass first stage inScope

theorem entered_lowerElements {a b : Arena} (elements : List (TypeExpr × Bool))
    (pass : Pass full targets (TypeExpr.referencesOfElements elements)) {entries : List TupleElement}
    (made : Gives (lowerElements targets scope elements) a entries b)
    (stage : Stage full targets ids a) (inScope : InScope parameters scope a) :
    Entered full targets ids parameters a b (entries.map TupleElement.type) := by
  cases elements with
  | nil =>
    simp only [lowerElements] at made
    obtain ⟨rfl, rfl⟩ := gives_pure.1 made
    exact .nothing stage
  | cons element rest =>
    obtain ⟨expr, optional⟩ := element
    simp only [lowerElements] at made
    obtain ⟨type, middle, first, made⟩ := gives_bind.1 made
    obtain ⟨others, _, second, made⟩ := gives_bind.1 made
    obtain ⟨rfl, rfl⟩ := gives_pure.1 made
    have entered := entered_lower expr
      (pass.of_subset fun _ inside => List.mem_append_left _ inside) first stage inScope
    exact entered.append (entered_lowerElements rest
      (pass.of_subset fun _ inside => List.mem_append_right _ inside) second entered.stage
      (inScope.extends stage.sound.ordered entered.grown))

theorem entered_lowerProperties {a b : Arena} (properties : List (PropertyHead × Option TypeExpr))
    (pass : Pass full targets (TypeExpr.referencesOfProperties properties)) {members : List Property}
    (made : Gives (lowerProperties targets scope properties) a members b)
    (stage : Stage full targets ids a) (inScope : InScope parameters scope a) :
    Entered full targets ids parameters a b (members.filterMap Property.type) := by
  cases properties with
  | nil =>
    simp only [lowerProperties] at made
    obtain ⟨rfl, rfl⟩ := gives_pure.1 made
    exact .nothing stage
  | cons property rest =>
    obtain ⟨head, expr?⟩ := property
    simp only [lowerProperties] at made
    obtain ⟨type?, middle, first, made⟩ := gives_bind.1 made
    obtain ⟨others, _, second, made⟩ := gives_bind.1 made
    obtain ⟨rfl, rfl⟩ := gives_pure.1 made
    have entered := entered_lowerOption expr?
      (pass.of_subset fun _ inside => List.mem_append_left _ inside) first stage inScope
    have further := entered_lowerProperties rest
      (pass.of_subset fun _ inside => List.mem_append_right _ inside) second entered.stage
      (inScope.extends stage.sound.ordered entered.grown)
    cases type? <;> exact entered.append further

end

/-- What a reference is lowered to is a reference. -/
theorem isReference_lower {name : String} {arguments : List TypeExpr} {type : TypeId}
    (made : Gives (lower targets scope (.reference name arguments)) a type b) :
    b.IsReference type := by
  simp only [lower] at made
  split at made
  · exact absurd made gives_throw
  · rename_i target _
    split at made
    · exact absurd made gives_throw
    · obtain ⟨parts, middle, -, made⟩ := gives_bind.1 made
      have found := Arena.lookup?_intern middle (.reference target.id parts)
      rw [gives_onArena.1 made] at found
      exact ⟨target.id, parts, found⟩

end Lowering

end ShapeCheck
