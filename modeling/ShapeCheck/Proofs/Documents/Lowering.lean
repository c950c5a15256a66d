import ShapeCheck.Proofs.Documents.Expressions

set_option autoImplicit false

/-! # Lowered documents

All definitions are declared before the first body is entered, so references lead to definitions even
where these come later. At the end every definition has its body, the bases of all definitions are
references, and the arena is sound.

Main fact: `Document.isSound_lower`.
-/

namespace ShapeCheck

namespace Lowering

variable {full : Prop} {targets : Targets} {ids : List DefinitionId} {parameters : List ParameterId}
  {scope : Scope} {a b c : Arena}

/-! ## Declarations -/

/-- The definition is declared with its parameters, which are in scope. -/
structure IsDeclared (a : Arena) (declared : Declared) : Prop where
  known : ∃ definition, a.definition? declared.id = some definition ∧
    definition.parameters = declared.parameters
  inScope : InScope declared.parameters declared.scope a

theorem IsDeclared.extends {declared : Declared} (h : IsDeclared a declared) (ordered : a.IsOrdered)
    (grown : a.Extends b) : IsDeclared b declared := by
  obtain ⟨definition, known, same⟩ := h.known
  obtain ⟨later, found, parameters, -⟩ := grown.definitions _ _ known
  exact ⟨⟨later, found, parameters.trans same⟩, h.inScope.extends ordered grown⟩

theorem declared_declareParameters (decls : List ParameterDecl) {before after : List ParameterId}
    {scope' : Scope} (made : Gives (declareParameters before scope decls) a (after, scope') b)
    (stage : Stage full targets ids a) (inScope : InScope before scope a) :
    Stage full targets ids b ∧ a.Extends b ∧ InScope after scope' b ∧
      after.length = before.length + decls.length := by
  induction decls generalizing before scope a with
  | nil =>
    obtain ⟨same, rfl⟩ := gives_pure.1 made
    obtain ⟨rfl, rfl⟩ := Prod.mk.inj same
    refine ⟨stage, .refl a, fun name type found => ?_, by simp⟩
    exact (inScope name type found).mono fun id inside => List.mem_reverse.2 inside
  | cons decl rest ih =>
    obtain ⟨⟨id, type⟩, middle, added, made⟩ := gives_bind.1 made
    have added := gives_onArena.1 added
    have sound := stage.sound.addParameter decl.name
    have grown := Arena.extends_addParameter a decl.name
    have written := Arena.writtenIn_addParameter a decl.name
    have same (id : DefinitionId) : (a.addParameter decl.name).2.2.definition? id = a.definition? id :=
      (Arena.definition?_intern _ _ id).trans rfl
    obtain ⟨⟨rfl, rfl⟩, rfl⟩ : ((a.addParameter decl.name).1 = id ∧ (a.addParameter decl.name).2.1 = type) ∧
        (a.addParameter decl.name).2.2 = middle := by simpa using added
    obtain ⟨stage', grown', inScope', length⟩ := ih made (stage.of_definitions_eq sound same)
      fun name other found => by
        rw [List.lookup_cons] at found
        split at found
        · cases found
          exact written.mono (by simp)
        · exact (grown.writtenIn stage.sound.ordered (inScope name other found)).mono
            fun _ inside => List.mem_cons_of_mem _ inside
    refine ⟨stage', grown.trans grown', inScope', ?_⟩
    rw [length, List.length_cons, List.length_cons]
    omega

/-- The targets come from declarations with as many parameters as they say. -/
def Originate (decls : List DefinitionDecl) (targets : Targets) : Prop :=
  ∀ name target, targets.lookup name = some target →
    ∃ decl ∈ decls, decl.name = name ∧ decl.parameters.length = target.arity

theorem declared_declareAll {all : List DefinitionDecl} (decls : List DefinitionDecl)
    {before after : List Declared} {targets' : Targets}
    (made : Gives (declareAll targets before decls) a (targets', after) b)
    (stage : Stage full targets (before.map Declared.id) a)
    (declared : ∀ d ∈ before, IsDeclared a d ∧ d.decl ∈ all)
    (originate : Originate all targets) (among : ∀ decl ∈ decls, decl ∈ all) :
    Stage full targets' (after.map Declared.id) b ∧
      (∀ d ∈ after, IsDeclared b d ∧ d.decl ∈ all) ∧ Originate all targets' := by
  induction decls generalizing targets before a with
  | nil =>
    obtain ⟨same, rfl⟩ := gives_pure.1 made
    obtain ⟨rfl, rfl⟩ := Prod.mk.inj same
    refine ⟨⟨stage.sound, stage.targets, fun id definition known => ?_⟩, fun d inside => ?_, originate⟩
    · rw [List.map_reverse]
      exact List.mem_reverse.2 (stage.declared id definition known)
    · exact declared d (List.mem_reverse.1 inside)
  | cons decl rest ih =>
    simp only [declareAll] at made
    split at made
    · exact absurd made gives_throw
    · obtain ⟨⟨parameters, scope⟩, middle, first, made⟩ := gives_bind.1 made
      obtain ⟨id, opened, second, made⟩ := gives_bind.1 made
      obtain ⟨stage', grown, inScope, length⟩ := declared_declareParameters decl.parameters first stage
        (fun _ _ found => by cases found)
      have second := gives_onArena.1 second
      have grown' := Arena.extends_declare middle decl.name parameters
      have sound := stage'.sound.declare decl.name parameters
      have known : (middle.declare decl.name parameters).2.definition?
          (middle.declare decl.name parameters).1 = some ⟨decl.name, parameters, none, []⟩ := by
        simp [Arena.declare, Arena.definition?]
      have old (other : DefinitionId) (definition : Definition)
          (found : (middle.declare decl.name parameters).2.definition? other = some definition) :=
        Arena.definition?_declare found
      rw [second] at grown' sound known old
      have ordered := stage'.sound.ordered
      refine ih made ⟨sound, fun name target found => ?_, fun other definition found => ?_⟩
        (fun d inside => ?_) (fun name target found => ?_)
        fun other inside => among other (List.mem_cons_of_mem _ inside)
      · rw [List.lookup_cons] at found
        split at found
        · cases found
          exact ⟨_, known, rfl⟩
        · obtain ⟨definition, there, arity⟩ := stage'.targets name target found
          obtain ⟨later, there, same, -⟩ := grown'.definitions _ _ there
          exact ⟨later, there, by rw [same, arity]⟩
      · rcases old other definition found with before | ⟨rfl, -⟩
        · exact List.mem_cons_of_mem _ (stage'.declared other definition before)
        · exact List.mem_cons_self
      · rcases List.mem_cons.1 inside with rfl | inside
        · exact ⟨⟨⟨_, known, rfl⟩, inScope.extends ordered grown'⟩, among decl List.mem_cons_self⟩
        · obtain ⟨isDeclared, listed⟩ := declared d inside
          exact ⟨isDeclared.extends stage.sound.ordered (grown.trans grown'), listed⟩
      · rw [List.lookup_cons] at found
        split at found
        · rename_i same
          cases found
          refine ⟨decl, among decl List.mem_cons_self, (eq_of_beq same).symm, ?_⟩
          rw [length, List.length_nil, Nat.zero_add]
        · exact originate name target found

/-! ## Bodies -/

theorem stage_lowerDefaults {entries : List (ParameterDecl × ParameterId)}
    (pass : Pass full targets
      (entries.flatMap fun entry => TypeExpr.referencesOfOption entry.1.default)) {u : Unit}
    (made : Gives (lowerDefaults targets scope entries) a u b) (stage : Stage full targets ids a)
    (inScope : InScope parameters scope a) : Stage full targets ids b ∧ a.Extends b := by
  induction entries generalizing a with
  | nil =>
    obtain ⟨-, rfl⟩ := gives_pure.1 made
    exact ⟨stage, .refl a⟩
  | cons entry rest ih =>
    obtain ⟨decl, id⟩ := entry
    have others : Pass full targets
        (rest.flatMap fun entry => TypeExpr.referencesOfOption entry.1.default) :=
      pass.of_subset fun r inside => by
        rw [List.flatMap_cons]
        exact List.mem_append_right _ inside
    simp only [lowerDefaults] at made
    cases given : decl.default with
    | none =>
      simp only [given] at made
      exact ih others made stage inScope
    | some expr =>
      simp only [given] at made
      obtain ⟨type, middle, first, made⟩ := gives_bind.1 made
      obtain ⟨_, _, set_, made⟩ := gives_bind.1 made
      obtain rfl := gives_modify.1 set_
      have entered := entered_lower expr (pass.of_subset fun r inside => by
        rw [List.flatMap_cons]
        exact List.mem_append_left _ (by simpa [given, TypeExpr.referencesOfOption] using inside)) first stage inScope
      have there := (entered.written type (by simp)).1
      have grown := entered.grown.trans (Arena.extends_setDefault middle id type)
      obtain ⟨stage', grown'⟩ := ih others made
        (entered.stage.of_definitions_eq (entered.stage.sound.setDefault there) fun _ => rfl)
        (inScope.extends stage.sound.ordered grown)
      exact ⟨stage', grown.trans grown'⟩

/-- Changing a definition keeps the stage if the definition keeps its parameters. -/
theorem Stage.of_modify (stage : Stage full targets ids a) {id : DefinitionId}
    {change : Definition → Definition}
    (sound : Arena.IsSound full { a with definitions := a.definitions.modify id.index change })
    (grown : a.Extends { a with definitions := a.definitions.modify id.index change }) :
    Stage full targets ids { a with definitions := a.definitions.modify id.index change } where
  sound := sound
  targets name target found := by
    obtain ⟨definition, known, arity⟩ := stage.targets name target found
    obtain ⟨later, known, parameters, -⟩ := grown.definitions _ _ known
    exact ⟨later, known, by rw [parameters, arity]⟩
  declared other definition known := by
    obtain ⟨before, found, -⟩ := Arena.definition?_modify known
    exact stage.declared other before found

theorem IsDeclared.writtenIn {declared : Declared} (h : IsDeclared a declared) {type : TypeId}
    (written : a.WrittenIn declared.parameters type) (definition : Definition)
    (known : a.definition? declared.id = some definition) :
    a.WrittenIn definition.parameters type := by
  obtain ⟨other, found, same⟩ := h.known
  obtain rfl := Option.some.inj (known.symm.trans found)
  rwa [same]

theorem stage_lowerBases {declared : Declared} {bases : List TypeExpr}
    (pass : Pass full targets (bases.flatMap TypeExpr.references)) {u : Unit}
    (made : Gives (lowerBases targets declared bases) a u b) (stage : Stage full targets ids a)
    (isDeclared : IsDeclared a declared) : Stage full targets ids b ∧ a.Extends b := by
  induction bases generalizing a with
  | nil =>
    obtain ⟨-, rfl⟩ := gives_pure.1 made
    exact ⟨stage, .refl a⟩
  | cons expr rest ih =>
    have others : Pass full targets (rest.flatMap TypeExpr.references) :=
      pass.of_subset fun r inside => by
        rw [List.flatMap_cons]
        exact List.mem_append_right _ inside
    simp only [lowerBases] at made
    split at made
    · rename_i name arguments
      obtain ⟨base, middle, first, made⟩ := gives_bind.1 made
      obtain ⟨_, _, added, made⟩ := gives_bind.1 made
      obtain rfl := gives_modify.1 added
      have entered := entered_lower (.reference name arguments) (pass.of_subset fun r inside => by
        rw [List.flatMap_cons]
        exact List.mem_append_left _ inside) first stage isDeclared.inScope
      have ordered := stage.sound.ordered
      have between := isDeclared.extends ordered entered.grown
      have grown := Arena.extends_addBase middle declared.id base
      have sound := entered.stage.sound.addBase
        (between.writtenIn (entered.written base (by simp))) (isReference_lower first)
      obtain ⟨stage', grown'⟩ := ih others made (entered.stage.of_modify sound grown)
        (between.extends entered.stage.sound.ordered grown)
      exact ⟨stage', (entered.grown.trans grown).trans grown'⟩
    · obtain ⟨_, _, impossible, -⟩ := gives_bind.1 made
      exact absurd impossible gives_throw

/-- The definition has its body. -/
def HasBody (a : Arena) (id : DefinitionId) : Prop :=
  ∃ definition, a.definition? id = some definition ∧ definition.body.isSome

theorem HasBody.extends {id : DefinitionId} (h : HasBody a id) (grown : a.Extends b) : HasBody b id := by
  obtain ⟨definition, known, given⟩ := h
  obtain ⟨later, known, -, kept⟩ := grown.definitions _ _ known
  exact ⟨later, known, kept given⟩

/-- After a definition has been entered it has a body. -/
theorem stage_lowerDefinition {declared : Declared}
    (pass : Pass full targets declared.decl.references) {u : Unit}
    (made : Gives (lowerDefinition targets declared) a u b) (stage : Stage full targets ids a)
    (isDeclared : IsDeclared a declared) :
    Stage full targets ids b ∧ a.Extends b ∧ HasBody b declared.id := by
  obtain ⟨_, first, defaults, made⟩ := gives_bind.1 made
  obtain ⟨_, second, bases, made⟩ := gives_bind.1 made
  obtain ⟨body, third, entered, made⟩ := gives_bind.1 made
  obtain rfl := gives_modify.1 made
  have inDefaults : ∀ r ∈ (declared.decl.parameters.zip declared.parameters).flatMap
      (fun entry => TypeExpr.referencesOfOption entry.1.default), r ∈ declared.decl.references := by
    intro r inside
    obtain ⟨entry, listed, inside⟩ := List.mem_flatMap.1 inside
    exact List.mem_append_left _ (List.mem_append_left _
      (List.mem_flatMap.2 ⟨entry.1, (List.of_mem_zip listed).1, inside⟩))
  have inBases : ∀ r ∈ declared.decl.bases.flatMap TypeExpr.references,
      r ∈ declared.decl.references :=
    fun r inside => List.mem_append_left _ (List.mem_append_right _ inside)
  have inBody : ∀ r ∈ declared.decl.body.references, r ∈ declared.decl.references :=
    fun r inside => List.mem_append_right _ inside
  obtain ⟨stage₁, grown₁⟩ := stage_lowerDefaults (pass.of_subset inDefaults) defaults stage
    isDeclared.inScope
  have declared₁ := isDeclared.extends stage.sound.ordered grown₁
  obtain ⟨stage₂, grown₂⟩ := stage_lowerBases (pass.of_subset inBases) bases stage₁ declared₁
  have declared₂ := declared₁.extends stage₁.sound.ordered grown₂
  have lowered := entered_lower declared.decl.body (pass.of_subset inBody) entered stage₂
    declared₂.inScope
  have declared₃ := declared₂.extends stage₂.sound.ordered lowered.grown
  have grown := Arena.extends_define third declared.id body
  have sound := lowered.stage.sound.define (declared₃.writtenIn (lowered.written body (by simp)))
  refine ⟨lowered.stage.of_modify sound grown,
    ((grown₁.trans grown₂).trans lowered.grown).trans grown, ?_⟩
  obtain ⟨definition, known, -⟩ := declared₃.known
  rw [Arena.definition?] at known
  exact ⟨{ definition with body := some body },
    by simp [Arena.define, Arena.definition?, Array.getElem?_modify, known], rfl⟩

theorem stage_lowerDefinitions {all : List Declared}
    (pass : ∀ d ∈ all, Pass full targets d.decl.references) {u : Unit}
    (made : Gives (all.forM (lowerDefinition targets)) a u b) (stage : Stage full targets ids a)
    (isDeclared : ∀ d ∈ all, IsDeclared a d) :
    Stage full targets ids b ∧ a.Extends b ∧ ∀ d ∈ all, HasBody b d.id := by
  induction all generalizing a with
  | nil =>
    obtain ⟨-, rfl⟩ := gives_pure.1 made
    exact ⟨stage, .refl a, nofun⟩
  | cons d rest ih =>
    rw [List.forM_eq_forM, List.forM_cons] at made
    obtain ⟨_, middle, first, made⟩ := gives_bind.1 made
    obtain ⟨stage₁, grown₁, body⟩ := stage_lowerDefinition (pass d (by simp)) first stage
      (isDeclared d (by simp))
    obtain ⟨stage₂, grown₂, bodies⟩ := ih (fun d inside => pass d (by simp [inside])) made stage₁
      fun d inside => (isDeclared d (by simp [inside])).extends stage.sound.ordered grown₁
    refine ⟨stage₂, grown₁.trans grown₂, fun other inside => ?_⟩
    rcases List.mem_cons.1 inside with rfl | inside
    · exact body.extends grown₂
    · exact bodies other inside

/-- At first nothing is declared. -/
theorem stage_initial (full : Prop) : Stage full [] [] .initial where
  sound := Arena.isSound_initial _
  targets := by rintro _ _ ⟨⟩
  declared id definition known := by simp [Arena.definition?, Arena.initial] at known

end Lowering

/-! ## Documents -/

open Lowering in
/-- A document that can be lowered leaves a sound arena in which every definition has its body, and its
root has no open parameters. If all references pass all arguments, so do those in the arena. -/
theorem Document.isSound_lower {document : Document} {root : TypeId} {arena : Arena}
    (lowered : document.lower .initial = (.ok root, arena)) :
    arena.IsSound document.PassesAll ∧
      (∀ id definition, arena.definition? id = some definition → definition.body.isSome) ∧
        arena.WrittenIn [] root := by
  obtain ⟨⟨targets, declared⟩, first, declaring, rest⟩ := gives_bind.1
    (show Gives (lowerDocument document) .initial root arena from lowered)
  obtain ⟨_, second, defining, entering⟩ := gives_bind.1 rest
  obtain ⟨stage₁, isDeclared, originate⟩ := declared_declareAll document.definitions declaring
    (stage_initial document.PassesAll) (by rintro _ ⟨⟩) (by rintro _ _ ⟨⟩) fun _ inside => inside
  have pass {references : List (String × Nat)} (part : ∀ r ∈ references, r ∈ document.references) :
      Pass document.PassesAll targets references := by
    intro passesAll reference inside target found
    obtain ⟨decl, listed, named, arity⟩ := originate _ _ found
    rw [← arity]
    exact passesAll reference (part reference inside) decl listed named
  obtain ⟨stage₂, grown, bodies⟩ := stage_lowerDefinitions (fun d inside => pass fun r among =>
    List.mem_append_left _ (List.mem_flatMap.2 ⟨d.decl, (isDeclared d inside).2, among⟩)) defining stage₁
    fun d inside => (isDeclared d inside).1
  have noParameters : InScope [] [] second := by rintro _ _ ⟨⟩
  have lowered := entered_lower document.root (pass fun r among => List.mem_append_right _ among)
    entering stage₂ noParameters
  refine ⟨lowered.stage.sound, fun id definition known => ?_, lowered.written root (by simp)⟩
  obtain ⟨d, inside, rfl⟩ := List.mem_map.1 (lowered.stage.declared id definition known)
  obtain ⟨other, found, given⟩ := (bodies d inside).extends lowered.grown
  obtain rfl := Option.some.inj (known.symm.trans found)
  exact given

end ShapeCheck
