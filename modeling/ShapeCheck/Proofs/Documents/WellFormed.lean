import Mathlib.Data.List.Nodup
import ShapeCheck.Proofs.Documents.Expressions

set_option autoImplicit false

/-! # Well-formed documents

Whether a document can be lowered depends on its names alone: definitions have different names, every
reference names a definition that declares as many parameters as it passes, every type parameter is
declared by the definition around it, and definitions extend references. Nothing depends on the arena, on
the order of the definitions, or on what is reachable from the root.

Main fact: `Document.exists_lower_iff`.
-/

namespace ShapeCheck

/-! ## Names that an expression mentions -/

namespace TypeExpr

mutual

/-- The type parameters that an expression mentions. -/
def parameterNames : TypeExpr → List String
  | .array element => element.parameterNames
  | .tuple elements => parameterNamesOfElements elements
  | .object properties index => parameterNamesOfProperties properties ++ parameterNamesOfOption index
  | .union members => parameterNamesOfAll members
  | .intersection members => parameterNamesOfAll members
  | .reference _ arguments => parameterNamesOfAll arguments
  | .parameter name => [name]
  | .indexAccess whole key => whole.parameterNames ++ key.parameterNames
  | .keyof operand => operand.parameterNames
  | _ => []

/-- The type parameters that several expressions mention. -/
def parameterNamesOfAll : List TypeExpr → List String
  | [] => []
  | expr :: rest => expr.parameterNames ++ parameterNamesOfAll rest

/-- The type parameters of an expression that may be missing. -/
def parameterNamesOfOption : Option TypeExpr → List String
  | none => []
  | some expr => expr.parameterNames

/-- The type parameters that the positions of a tuple mention. -/
def parameterNamesOfElements : List (TypeExpr × Bool) → List String
  | [] => []
  | (expr, _) :: rest => expr.parameterNames ++ parameterNamesOfElements rest

/-- The type parameters that the members of an object mention. -/
def parameterNamesOfProperties : List (PropertyHead × Option TypeExpr) → List String
  | [] => []
  | (_, expr) :: rest => parameterNamesOfOption expr ++ parameterNamesOfProperties rest

end

/-- The expression is a reference. -/
def IsReference : TypeExpr → Prop
  | .reference _ _ => True
  | _ => False

end TypeExpr

/-- The type parameters that a definition mentions: in defaults, in its bases and its body. -/
def DefinitionDecl.parameterNames (decl : DefinitionDecl) : List String :=
  decl.parameters.flatMap (fun parameter => TypeExpr.parameterNamesOfOption parameter.default) ++
    decl.bases.flatMap TypeExpr.parameterNames ++ decl.body.parameterNames

/-- One of the definitions has the name of the reference and declares as many parameters as it passes.
-/
def Resolves (definitions : List DefinitionDecl) (reference : String × Nat) : Prop :=
  ∃ decl ∈ definitions, decl.name = reference.1 ∧ reference.2 ≤ decl.parameters.length

/-- The definition makes sense among these definitions. -/
structure DefinitionDecl.IsWellFormed (definitions : List DefinitionDecl) (decl : DefinitionDecl) :
    Prop where
  references : ∀ reference ∈ decl.references, Resolves definitions reference
  parameters : ∀ name ∈ decl.parameterNames, name ∈ decl.parameters.map ParameterDecl.name
  bases : ∀ base ∈ decl.bases, base.IsReference

/-- The names of a document make sense. -/
structure Document.IsWellFormed (document : Document) : Prop where
  names : (document.definitions.map DefinitionDecl.name).Nodup
  definitions : ∀ decl ∈ document.definitions, decl.IsWellFormed document.definitions
  references : ∀ reference ∈ document.root.references, Resolves document.definitions reference
  parameters : document.root.parameterNames = []

namespace Lowering

variable {α β : Type} {targets : Targets} {scope : Scope}

/-! ## Steps that work under a condition -/

/-- The step has an outcome in every arena if the condition holds, and in none if it does not. -/
structure Works (m : Lowering α) (P : Prop) : Prop where
  succeeds : P → ∀ s, ∃ x t, Gives m s x t
  only : ∀ {s : Arena} {x : α} {t : Arena}, Gives m s x t → P

namespace Works

variable {m : Lowering α} {f : α → Lowering β} {P Q : Prop}

theorem pure (x : α) : Works (Pure.pure x : Lowering α) True :=
  ⟨fun _ a => ⟨x, a, gives_pure.2 ⟨rfl, rfl⟩⟩, fun _ => trivial⟩

theorem throw (e : DocumentError) : Works (MonadExcept.throw e : Lowering α) False :=
  ⟨False.elim, fun made => gives_throw made⟩

theorem onArena (operation : Arena → α × Arena) : Works (Lowering.onArena operation) True :=
  ⟨fun _ _ => ⟨_, _, gives_onArena.2 rfl⟩, fun _ => trivial⟩

theorem update (change : Arena → Arena) : Works (modify change : Lowering Unit) True :=
  ⟨fun _ a => ⟨(), change a, gives_modify.2 rfl⟩, fun _ => trivial⟩

theorem congr (h : Works m P) (same : P ↔ Q) : Works m Q :=
  ⟨fun holds => h.succeeds (same.2 holds), fun made => same.1 (h.only made)⟩

/-- A sequence works if its parts do. The second part may count on what results of the first are like.
-/
theorem bind {R : α → Prop} (first : Works m P) (results : ∀ {a x b}, Gives m a x b → R x)
    (second : ∀ x, R x → Works (f x) Q) : Works (m >>= f) (P ∧ Q) where
  succeeds := by
    rintro ⟨here, there⟩ a
    obtain ⟨x, b, made⟩ := first.succeeds here a
    obtain ⟨y, c, further⟩ := (second x (results made)).succeeds there b
    exact ⟨y, c, gives_bind.2 ⟨x, b, made, further⟩⟩
  only := by
    intro a y c made
    obtain ⟨x, b, made, further⟩ := gives_bind.1 made
    exact ⟨first.only made, (second x (results made)).only further⟩

theorem andThen (first : Works m P) (second : ∀ x, Works (f x) Q) : Works (m >>= f) (P ∧ Q) :=
  first.bind (R := fun _ => True) (fun _ => trivial) fun x _ => second x

/-- What follows never fails. -/
theorem finish (first : Works m P) (second : ∀ x, Works (f x) True) : Works (m >>= f) P :=
  (first.andThen second).congr (by simp)

end Works

/-! ## Expressions -/

/-- References have targets with enough parameters, and type parameters are in scope. -/
structure Closed (targets : Targets) (scope : Scope) (references : List (String × Nat))
    (names : List String) : Prop where
  references : ∀ reference ∈ references, ∃ target, targets.lookup reference.1 = some target ∧
    reference.2 ≤ target.arity
  names : ∀ name ∈ names, (scope.lookup name).isSome

theorem closed_nil : Closed targets scope [] [] := ⟨nofun, nofun⟩

theorem closed_append {references references' : List (String × Nat)} {names names' : List String} :
    Closed targets scope (references ++ references') (names ++ names') ↔
      Closed targets scope references names ∧ Closed targets scope references' names' := by
  constructor
  · intro h
    constructor
    · exact ⟨fun r inside => h.references r (List.mem_append_left _ inside),
        fun name inside => h.names name (List.mem_append_left _ inside)⟩
    · exact ⟨fun r inside => h.references r (List.mem_append_right _ inside),
        fun name inside => h.names name (List.mem_append_right _ inside)⟩
  · rintro ⟨first, second⟩
    constructor
    · intro r inside
      exact (List.mem_append.1 inside).elim (first.references r) (second.references r)
    · intro name inside
      exact (List.mem_append.1 inside).elim (first.names name) (second.names name)

mutual

/-- An expression can be entered exactly if it is closed. -/
theorem works_lower (expr : TypeExpr) :
    Works (lower targets scope expr) (Closed targets scope expr.references expr.parameterNames) := by
  have nothing : True ↔ Closed targets scope [] [] := ⟨fun _ => closed_nil, fun _ => trivial⟩
  cases expr with
  | keyword | buffer | booleanLiteral =>
    simp only [lower]
    exact (Works.pure _).congr nothing
  | stringLiteral | numberLiteral | view =>
    simp only [lower]
    exact (Works.onArena _).congr nothing
  | array element =>
    simp only [lower]
    exact (works_lower element).finish fun _ => .onArena _
  | tuple elements =>
    simp only [lower]
    exact (works_lowerElements elements).finish fun _ => .onArena _
  | object properties index =>
    simp only [lower]
    exact ((works_lowerProperties properties).andThen fun _ =>
      (works_lowerOption index).finish fun _ => .onArena _).congr closed_append.symm
  | union members =>
    simp only [lower]
    exact (works_lowerAll members).finish fun _ => .onArena _
  | intersection members =>
    simp only [lower]
    exact (works_lowerAll members).finish fun _ => .onArena _
  | reference name arguments =>
    simp only [lower]
    have here : Closed targets scope (TypeExpr.reference name arguments).references
        (TypeExpr.reference name arguments).parameterNames ↔
          (∃ target, targets.lookup name = some target ∧ arguments.length ≤ target.arity) ∧
            Closed targets scope (TypeExpr.referencesOfAll arguments)
              (TypeExpr.parameterNamesOfAll arguments) := by
      constructor
      · intro h
        exact ⟨h.references (name, arguments.length) List.mem_cons_self,
          fun r inside => h.references r (List.mem_cons_of_mem _ inside), h.names⟩
      · rintro ⟨first, rest⟩
        exact ⟨fun r inside => (List.mem_cons.1 inside).elim (fun same => same ▸ first)
          (rest.references r), rest.names⟩
    cases found : targets.lookup name with
    | none => exact (Works.throw _).congr (by simp [here, found])
    | some target =>
      by_cases many : target.arity < arguments.length
      · simp only [many, if_true]
        exact (Works.throw _).congr (by simp [here, found, Nat.not_le.2 many])
      · simp only [many, if_false]
        refine ((works_lowerAll arguments).finish fun _ => .onArena _).congr ?_
        simp [here, found, Nat.not_lt.1 many]
  | parameter name =>
    simp only [lower]
    have here : Closed targets scope (TypeExpr.parameter name).references
        (TypeExpr.parameter name).parameterNames ↔ (scope.lookup name).isSome := by
      constructor
      · exact fun h => h.names name (List.mem_singleton_self name)
      · exact fun known => ⟨nofun, fun other inside => List.mem_singleton.1 inside ▸ known⟩
    cases found : scope.lookup name with
    | none => exact (Works.throw _).congr (by simp [here, found])
    | some type => exact (Works.pure _).congr (by simp [here, found])
  | indexAccess whole key =>
    simp only [lower]
    exact ((works_lower whole).andThen fun _ =>
      (works_lower key).finish fun _ => .onArena _).congr closed_append.symm
  | keyof operand =>
    simp only [lower]
    exact (works_lower operand).finish fun _ => .onArena _

theorem works_lowerAll (exprs : List TypeExpr) :
    Works (lowerAll targets scope exprs)
      (Closed targets scope (TypeExpr.referencesOfAll exprs) (TypeExpr.parameterNamesOfAll exprs)) := by
  cases exprs with
  | nil =>
    simp only [lowerAll]
    exact (Works.pure _).congr ⟨fun _ => closed_nil, fun _ => trivial⟩
  | cons expr rest =>
    simp only [lowerAll]
    exact ((works_lower expr).andThen fun _ =>
      (works_lowerAll rest).finish fun _ => .pure _).congr closed_append.symm

theorem works_lowerOption (expr? : Option TypeExpr) :
    Works (lowerOption targets scope expr?) (Closed targets scope (TypeExpr.referencesOfOption expr?)
      (TypeExpr.parameterNamesOfOption expr?)) := by
  cases expr? with
  | none =>
    simp only [lowerOption]
    exact (Works.pure _).congr ⟨fun _ => closed_nil, fun _ => trivial⟩
  | some expr =>
    simp only [lowerOption]
    exact (works_lower expr).finish fun _ => .pure _

theorem works_lowerElements (elements : List (TypeExpr × Bool)) :
    Works (lowerElements targets scope elements) (Closed targets scope
      (TypeExpr.referencesOfElements elements) (TypeExpr.parameterNamesOfElements elements)) := by
  cases elements with
  | nil =>
    simp only [lowerElements]
    exact (Works.pure _).congr ⟨fun _ => closed_nil, fun _ => trivial⟩
  | cons element rest =>
    obtain ⟨expr, optional⟩ := element
    simp only [lowerElements]
    exact ((works_lower expr).andThen fun _ =>
      (works_lowerElements rest).finish fun _ => .pure _).congr closed_append.symm

theorem works_lowerProperties (properties : List (PropertyHead × Option TypeExpr)) :
    Works (lowerProperties targets scope properties) (Closed targets scope
      (TypeExpr.referencesOfProperties properties) (TypeExpr.parameterNamesOfProperties properties)) := by
  cases properties with
  | nil =>
    simp only [lowerProperties]
    exact (Works.pure _).congr ⟨fun _ => closed_nil, fun _ => trivial⟩
  | cons property rest =>
    obtain ⟨head, expr?⟩ := property
    simp only [lowerProperties]
    exact ((works_lowerOption expr?).andThen fun _ =>
      (works_lowerProperties rest).finish fun _ => .pure _).congr closed_append.symm

end

/-! ## Definitions -/

theorem works_declareParameters (decls : List ParameterDecl) (before : List ParameterId) (scope : Scope) :
    Works (declareParameters before scope decls) True := by
  induction decls generalizing before scope with
  | nil => exact .pure _
  | cons decl rest ih => exact (Works.onArena _).finish fun _ => ih _ _

/-- The scope that the parameters of a definition make up knows their names. -/
theorem isSome_lookup_declareParameters (decls : List ParameterDecl) {before after : List ParameterId}
    {scope scope' : Scope} {a b : Arena}
    (made : Gives (declareParameters before scope decls) a (after, scope') b) (name : String) :
    (scope'.lookup name).isSome ↔ (scope.lookup name).isSome ∨ name ∈ decls.map ParameterDecl.name := by
  induction decls generalizing before scope a with
  | nil =>
    obtain ⟨same, -⟩ := gives_pure.1 made
    obtain ⟨-, rfl⟩ := Prod.mk.inj same
    simp
  | cons decl rest ih =>
    obtain ⟨⟨id, type⟩, middle, -, made⟩ := gives_bind.1 made
    rw [ih made, List.lookup_cons, List.map_cons, List.mem_cons]
    by_cases same : name = decl.name
    · simp [same]
    · simp [same, beq_eq_false_iff_ne.2 same]

theorem length_declareParameters (decls : List ParameterDecl) {before after : List ParameterId}
    {scope scope' : Scope} {a b : Arena}
    (made : Gives (declareParameters before scope decls) a (after, scope') b) :
    after.length = before.length + decls.length := by
  induction decls generalizing before scope a with
  | nil =>
    obtain ⟨same, -⟩ := gives_pure.1 made
    obtain ⟨rfl, -⟩ := Prod.mk.inj same
    simp
  | cons decl rest ih =>
    obtain ⟨⟨id, type⟩, middle, -, made⟩ := gives_bind.1 made
    rw [ih made, List.length_cons, List.length_cons]
    omega

/-- The definition has its parameters, and their names are in scope. -/
structure Declared.IsScoped (declared : Declared) : Prop where
  arity : declared.parameters.length = declared.decl.parameters.length
  names : ∀ name, (declared.scope.lookup name).isSome ↔
    name ∈ declared.decl.parameters.map ParameterDecl.name

/-- Declaring works if no name comes twice. -/
theorem works_declareAll (decls : List DefinitionDecl) (targets : Targets) (before : List Declared) :
    Works (declareAll targets before decls)
      ((decls.map DefinitionDecl.name).Nodup ∧ ∀ decl ∈ decls, targets.lookup decl.name = none) := by
  induction decls generalizing targets before with
  | nil => exact (Works.pure _).congr (by simp)
  | cons decl rest ih =>
    simp only [declareAll]
    cases known : targets.lookup decl.name with
    | some target =>
      refine (Works.throw _).congr ⟨False.elim, fun holds => ?_⟩
      have none := holds.2 decl List.mem_cons_self
      simp [known] at none
    | none =>
      simp only [Option.isSome_none, Bool.false_eq_true, if_false]
      -- a later definition must not have this name either
      have others (id : DefinitionId) (arity : Nat) (before : List Declared) :
          Works (declareAll ((decl.name, ⟨id, arity⟩) :: targets) before rest)
            ((rest.map DefinitionDecl.name).Nodup ∧ decl.name ∉ rest.map DefinitionDecl.name ∧
              ∀ other ∈ rest, targets.lookup other.name = none) := by
        refine (ih _ before).congr (and_congr_right fun _ => ?_)
        simp only [List.lookup_cons, List.mem_map, not_exists, not_and]
        constructor
        · intro none
          constructor
          · intro other inside same
            simpa [same] using none other inside
          · intro other inside
            have here := none other inside
            by_cases same : other.name = decl.name
            · simp [same] at here
            · simpa [beq_eq_false_iff_ne.2 same] using here
        · rintro ⟨different, none⟩ other inside
          rw [beq_eq_false_iff_ne.2 (different other inside)]
          exact none other inside
      refine ((works_declareParameters _ _ _).andThen fun made =>
        (Works.onArena _).andThen fun id => others id made.1.length _).congr ?_
      rw [List.map_cons, List.nodup_cons, List.forall_mem_cons]
      constructor
      · rintro ⟨-, -, nodup, different, none⟩
        exact ⟨⟨different, nodup⟩, known, none⟩
      · rintro ⟨⟨different, nodup⟩, -, none⟩
        exact ⟨trivial, trivial, nodup, different, none⟩

/-- What declaring leads to: targets for all definitions, and all of them in order. -/
theorem lists_declareAll (decls : List DefinitionDecl) {targets targets' : Targets}
    {before after : List Declared} {a b : Arena}
    (made : Gives (declareAll targets before decls) a (targets', after) b) :
    (∀ name, (targets'.lookup name).map Target.arity = ((targets.lookup name).map Target.arity).or
      ((decls.find? (·.name == name)).map (·.parameters.length))) ∧
      ∃ more, after = before.reverse ++ more ∧ more.map Declared.decl = decls ∧
        ∀ declared ∈ more, declared.IsScoped := by
  induction decls generalizing targets before a with
  | nil =>
    obtain ⟨same, -⟩ := gives_pure.1 made
    obtain ⟨rfl, rfl⟩ := Prod.mk.inj same
    exact ⟨fun name => by simp, [], by simp, rfl, nofun⟩
  | cons decl rest ih =>
    simp only [declareAll] at made
    split at made
    · exact absurd made gives_throw
    · rename_i absent
      obtain ⟨⟨parameters, scope⟩, middle, first, made⟩ := gives_bind.1 made
      obtain ⟨id, opened, -, made⟩ := gives_bind.1 made
      obtain ⟨listed, more, rfl, decls, others⟩ := ih made
      have arity : parameters.length = decl.parameters.length := by
        simpa using length_declareParameters decl.parameters first
      have isScoped : Declared.IsScoped ⟨decl, id, parameters, scope⟩ :=
        ⟨arity, fun name => (isSome_lookup_declareParameters decl.parameters first name).trans (by simp)⟩
      refine ⟨fun name => ?_, ⟨decl, id, parameters, scope⟩ :: more, by simp, by simp [decls], ?_⟩
      · rw [listed, List.lookup_cons, List.find?_cons]
        by_cases same : name = decl.name
        · have unknown : targets.lookup name = none := by
            rw [same]
            exact Option.not_isSome_iff_eq_none.1 absent
          rw [unknown]
          simp [same, arity]
        · simp [beq_eq_false_iff_ne.2 same, beq_eq_false_iff_ne.2 (Ne.symm same)]
      · rintro declared inside
        rcases List.mem_cons.1 inside with rfl | later
        · exact isScoped
        · exact others declared later

theorem works_lowerDefaults (targets : Targets) (scope : Scope)
    (entries : List (ParameterDecl × ParameterId)) :
    Works (lowerDefaults targets scope entries) (Closed targets scope
      (entries.flatMap fun entry => TypeExpr.referencesOfOption entry.1.default)
      (entries.flatMap fun entry => TypeExpr.parameterNamesOfOption entry.1.default)) := by
  induction entries with
  | nil => exact (Works.pure _).congr ⟨fun _ => closed_nil, fun _ => trivial⟩
  | cons entry rest ih =>
    obtain ⟨decl, id⟩ := entry
    simp only [lowerDefaults]
    cases given : decl.default with
    | none => exact ih.congr (by simp [given, TypeExpr.referencesOfOption, TypeExpr.parameterNamesOfOption])
    | some expr =>
      refine ((works_lower expr).andThen fun type => (Works.update _).andThen fun _ => ih).congr ?_
      rw [List.flatMap_cons, List.flatMap_cons, closed_append, given]
      constructor
      · exact fun h => ⟨h.1, h.2.2⟩
      · exact fun h => ⟨h.1, trivial, h.2⟩

theorem works_lowerBases (targets : Targets) (declared : Declared) (bases : List TypeExpr) :
    Works (lowerBases targets declared bases) (Closed targets declared.scope
        (bases.flatMap TypeExpr.references) (bases.flatMap TypeExpr.parameterNames) ∧
      ∀ base ∈ bases, base.IsReference) := by
  induction bases with
  | nil => exact (Works.pure _).congr ⟨fun _ => ⟨closed_nil, nofun⟩, fun _ => trivial⟩
  | cons expr rest ih =>
    simp only [lowerBases]
    rw [List.flatMap_cons, List.flatMap_cons, closed_append, List.forall_mem_cons]
    cases expr with
    | reference name arguments =>
      refine ((works_lower (.reference name arguments)).andThen fun base =>
        (Works.update _).andThen fun _ => ih).congr ?_
      constructor
      · rintro ⟨here, -, others, references⟩
        exact ⟨⟨here, others⟩, trivial, references⟩
      · rintro ⟨⟨here, others⟩, -, references⟩
        exact ⟨here, trivial, others, references⟩
    | _ => exact ((Works.throw _).andThen fun _ => ih).congr ⟨fun h => h.1.elim, fun h => h.2.1.elim⟩

/-- A definition can be entered if all it mentions is known and it extends references. -/
theorem works_lowerDefinition (targets : Targets) {declared : Declared} (isScoped : declared.IsScoped) :
    Works (lowerDefinition targets declared)
      (Closed targets declared.scope declared.decl.references declared.decl.parameterNames ∧
        ∀ base ∈ declared.decl.bases, base.IsReference) := by
  -- every declared parameter has its place in the list of pairs
  have all {γ : Type} (part : ParameterDecl → List γ) :
      (declared.decl.parameters.zip declared.parameters).flatMap (fun entry => part entry.1) =
        declared.decl.parameters.flatMap part := by
    have firsts := List.map_fst_zip (Nat.le_of_eq isScoped.arity.symm)
    calc (declared.decl.parameters.zip declared.parameters).flatMap (fun entry => part entry.1)
      _ = ((declared.decl.parameters.zip declared.parameters).map Prod.fst).flatMap part :=
        (List.flatMap_map ..).symm
      _ = declared.decl.parameters.flatMap part := by rw [firsts]
  refine ((works_lowerDefaults targets declared.scope _).andThen fun _ =>
    (works_lowerBases targets declared _).andThen fun _ =>
      (works_lower declared.decl.body).finish fun _ => .update _).congr ?_
  unfold DefinitionDecl.references DefinitionDecl.parameterNames
  rw [closed_append, closed_append, all fun parameter => TypeExpr.referencesOfOption parameter.default,
    all fun parameter => TypeExpr.parameterNamesOfOption parameter.default]
  constructor
  · rintro ⟨defaults, ⟨bases, references⟩, body⟩
    exact ⟨⟨⟨defaults, bases⟩, body⟩, references⟩
  · rintro ⟨⟨⟨defaults, bases⟩, body⟩, references⟩
    exact ⟨defaults, ⟨bases, references⟩, body⟩

theorem works_forM {γ : Type} {step : γ → Lowering Unit} {P : γ → Prop} (items : List γ)
    (each : ∀ item ∈ items, Works (step item) (P item)) :
    Works (items.forM step) (∀ item ∈ items, P item) := by
  induction items with
  | nil => exact (Works.pure _).congr (by simp)
  | cons item rest ih =>
    rw [List.forM_eq_forM, List.forM_cons]
    refine ((each item List.mem_cons_self).andThen fun _ =>
      ih fun other later => each other (List.mem_cons_of_mem _ later)).congr ?_
    rw [List.forall_mem_cons]

/-! ## Documents -/

/-- What declaring the definitions of a document leads to. -/
structure Declares (definitions : List DefinitionDecl) (targets : Targets) (declared : List Declared) :
    Prop where
  names : (definitions.map DefinitionDecl.name).Nodup
  targets : ∀ name, (targets.lookup name).map Target.arity =
    (definitions.find? (·.name == name)).map (·.parameters.length)
  decls : declared.map Declared.decl = definitions
  scopes : ∀ d ∈ declared, d.IsScoped

theorem declares_declareAll {definitions : List DefinitionDecl} {targets : Targets}
    {declared : List Declared} {a b : Arena}
    (made : Gives (declareAll [] [] definitions) a (targets, declared) b) :
    Declares definitions targets declared := by
  obtain ⟨listed, more, rfl, decls, scopes⟩ := lists_declareAll definitions made
  refine ⟨((works_declareAll definitions [] []).only made).1, fun name => ?_, decls, scopes⟩
  simpa using listed name

/-- Of definitions with different names the one with some name is found. -/
theorem find?_of_mem {definitions : List DefinitionDecl}
    (names : (definitions.map DefinitionDecl.name).Nodup) {decl : DefinitionDecl}
    (inside : decl ∈ definitions) : definitions.find? (·.name == decl.name) = some decl := by
  cases known : definitions.find? (·.name == decl.name) with
  | none => simpa using List.find?_eq_none.1 known decl inside
  | some other =>
    have same : other.name = decl.name := by simpa using List.find?_some known
    exact congrArg some (List.inj_on_of_nodup_map names (List.mem_of_find?_eq_some known) inside same)

/-- The targets of a document resolve the references that its definitions resolve. -/
theorem Declares.exists_target_iff {definitions : List DefinitionDecl} {targets : Targets}
    {declared : List Declared} (declares : Declares definitions targets declared)
    (reference : String × Nat) :
    (∃ target, targets.lookup reference.1 = some target ∧ reference.2 ≤ target.arity) ↔
      Resolves definitions reference := by
  have here := declares.targets reference.1
  constructor
  · rintro ⟨target, found, enough⟩
    rw [found, Option.map_some] at here
    obtain ⟨decl, known, arity⟩ := Option.map_eq_some_iff.1 here.symm
    have named : decl.name = reference.1 := by simpa using List.find?_some known
    exact ⟨decl, List.mem_of_find?_eq_some known, named, by omega⟩
  · rintro ⟨decl, inside, named, enough⟩
    rw [← named, find?_of_mem declares.names inside, Option.map_some] at here
    obtain ⟨target, found, arity⟩ := Option.map_eq_some_iff.1 here
    exact ⟨target, named ▸ found, by omega⟩

theorem Declares.closed_iff {definitions : List DefinitionDecl} {targets : Targets}
    {declared : List Declared} (declares : Declares definitions targets declared) {scope : Scope}
    {references : List (String × Nat)} {names : List String} :
    Closed targets scope references names ↔ (∀ reference ∈ references, Resolves definitions reference) ∧
      ∀ name ∈ names, (scope.lookup name).isSome := by
  constructor
  · exact fun h => ⟨fun r inside => (declares.exists_target_iff r).1 (h.references r inside), h.names⟩
  · exact fun h => ⟨fun r inside => (declares.exists_target_iff r).2 (h.1 r inside), h.2⟩

/-- Entering the declared definitions and the root works if all of them are well-formed. -/
theorem Declares.works {document : Document} {targets : Targets} {declared : List Declared}
    (declares : Declares document.definitions targets declared) :
    Works (do declared.forM (lowerDefinition targets); lower targets [] document.root)
      ((∀ decl ∈ document.definitions, decl.IsWellFormed document.definitions) ∧
        (∀ reference ∈ document.root.references, Resolves document.definitions reference) ∧
          document.root.parameterNames = []) := by
  have definitions := works_forM declared fun d inside =>
    works_lowerDefinition targets (declares.scopes d inside)
  refine (definitions.andThen fun _ => works_lower document.root).congr (and_congr ?_ ?_)
  · rw [← declares.decls]
    simp only [List.forall_mem_map]
    refine forall₂_congr fun d inside => ?_
    rw [declares.closed_iff, declares.decls]
    have names := (declares.scopes d inside).names
    constructor
    · rintro ⟨⟨references, known⟩, bases⟩
      exact ⟨references, fun name mentioned => (names name).1 (known name mentioned), bases⟩
    · rintro ⟨references, known, bases⟩
      exact ⟨⟨references, fun name mentioned => (names name).2 (known name mentioned)⟩, bases⟩
  · rw [declares.closed_iff]
    refine and_congr_right fun _ => ?_
    simp [List.eq_nil_iff_forall_not_mem]

/-- A document can be lowered exactly if it is well-formed. -/
theorem works_lowerDocument (document : Document) :
    Works (lowerDocument document) document.IsWellFormed := by
  have declaring := works_declareAll document.definitions [] []
  refine (declaring.bind declares_declareAll fun _ declares => declares.works).congr ?_
  constructor
  · rintro ⟨⟨names, -⟩, definitions, references, parameters⟩
    exact ⟨names, definitions, references, parameters⟩
  · rintro ⟨names, definitions, references, parameters⟩
    exact ⟨⟨names, fun _ _ => rfl⟩, definitions, references, parameters⟩

end Lowering

/-- Whether a document can be lowered depends neither on the arena nor on the order of definitions. -/
theorem Document.exists_lower_iff (document : Document) (arena : Arena) :
    (∃ type after, document.lower arena = (.ok type, after)) ↔ document.IsWellFormed := by
  constructor
  · rintro ⟨type, after, made⟩
    exact (Lowering.works_lowerDocument document).only made
  · exact fun wellFormed => (Lowering.works_lowerDocument document).succeeds wellFormed arena

end ShapeCheck
