import ShapeCheck.Proofs.Documents.Entering
import ShapeCheck.Proofs.Documents.Lowering
import ShapeCheck.Proofs.Renaming.Types

set_option autoImplicit false
-- a mutual induction uses its hypotheses in its first theorem alone
set_option linter.unusedSectionVars false

/-! # Lowering twice

An expression is entered in the same way wherever it is entered: in two arenas, at different times and
with other definitions around, the types that come out match, if the names that it mentions lead to
definitions and type parameters that correspond.

Main fact: `Lowering.matches_lower`.
-/

namespace ShapeCheck

namespace Lowering

variable {targets targets' : Targets} {scope scope' : Scope}

/-! ## Where expressions are entered -/

/-- Expressions can be entered here: nothing is stored twice, and the names in scope have types. -/
structure Site (targets : Targets) (ids : List DefinitionId) (parameters : List ParameterId) (scope : Scope)
    (a : Arena) : Prop where
  stage : Stage False targets ids a
  inScope : InScope parameters scope a
  once : a.StoresOnce
  binds : Binds scope parameters a

section
variable {ids : List DefinitionId} {parameters : List ParameterId} {a b : Arena}
  (site : Site targets ids parameters scope a)
include site

theorem Site.entered {types : List TypeId} (entered : Entered False targets ids parameters a b types)
    (once : b.StoresOnce) : Site targets ids parameters scope b ∧ a.Extends b :=
  ⟨⟨entered.stage, site.inScope.extends site.stage.sound.ordered entered.grown, once,
    site.binds.mono entered.grown⟩, entered.grown⟩

theorem Site.lower {expr : TypeExpr} {type : TypeId} (made : Gives (lower targets scope expr) a type b) :
    Site targets ids parameters scope b ∧ a.Extends b :=
  site.entered (entered_lower expr False.elim made site.stage site.inScope)
    (keeps_lower (fun _ d once => once.intern d) expr a type b made site.once).1

theorem Site.lowerOption {expr? : Option TypeExpr} {type? : Option TypeId}
    (made : Gives (lowerOption targets scope expr?) a type? b) :
    Site targets ids parameters scope b ∧ a.Extends b :=
  site.entered (entered_lowerOption expr? False.elim made site.stage site.inScope)
    (keeps_lowerOption (fun _ d once => once.intern d) expr? a type? b made site.once).1

theorem Site.lowerAll {exprs : List TypeExpr} {types : List TypeId}
    (made : Gives (lowerAll targets scope exprs) a types b) :
    Site targets ids parameters scope b ∧ a.Extends b :=
  site.entered (entered_lowerAll exprs False.elim made site.stage site.inScope)
    (keeps_lowerAll (fun _ d once => once.intern d) exprs a types b made site.once).1

theorem Site.lowerElements {elements : List (TypeExpr × Bool)} {entries : List TupleElement}
    (made : Gives (lowerElements targets scope elements) a entries b) :
    Site targets ids parameters scope b ∧ a.Extends b :=
  site.entered (entered_lowerElements elements False.elim made site.stage site.inScope)
    (keeps_lowerElements (fun _ d once => once.intern d) elements a entries b made site.once).1

theorem Site.lowerProperties {properties : List (PropertyHead × Option TypeExpr)} {members : List Property}
    (made : Gives (lowerProperties targets scope properties) a members b) :
    Site targets ids parameters scope b ∧ a.Extends b :=
  site.entered (entered_lowerProperties properties False.elim made site.stage site.inScope)
    (keeps_lowerProperties (fun _ d once => once.intern d) properties a members b made site.once).1

end

end Lowering

/-! ## Matching descriptors enter two arenas -/

namespace Renaming.Matches

variable {ρ : Renaming} {a a' b b' : Arena} {type type' : TypeId} {full full' : Prop}

theorem isPlain_initial {descriptor : Descriptor} (found : Arena.initial.lookup? type = some descriptor) :
    descriptor.IsPlain := by
  have all : ∀ descriptor ∈ Arena.initial.descriptors.toList, descriptor.IsPlain := by
    simp [Arena.initial, Keyword.all, Descriptor.IsPlain]
  exact all descriptor (Array.mem_toList_iff.2 (Array.mem_of_getElem? found))

/-- Built-in types match themselves. -/
theorem builtin (sound : a.IsSound full) (sound' : a'.IsSound full') (isBuiltin : type.isBuiltin = true) :
    ρ.Matches a a' type type := by
  obtain ⟨descriptor, found⟩ : ∃ descriptor, Arena.initial.lookup? type = some descriptor :=
    Arena.exists_lookup?_of_lt (of_decide_eq_true isBuiltin)
  exact of_lookup (sound.builtin type descriptor found) (sound'.builtin type descriptor found)
    (.plain (isPlain_initial found))

theorem intern {descriptor descriptor' : Descriptor} (made : a.intern descriptor = (type, b))
    (made' : a'.intern descriptor' = (type', b'))
    (pair : ρ.Pairs (ρ.Matches a a') descriptor descriptor') : ρ.Matches b b' type type' := by
  have found := Arena.lookup?_intern a descriptor
  have found' := Arena.lookup?_intern a' descriptor'
  have grown := Arena.extends_intern a descriptor
  have grown' := Arena.extends_intern a' descriptor'
  rw [made] at found grown
  rw [made'] at found' grown'
  exact of_lookup found found' (pair.mono fun x x' related => related.mono grown grown')

/-- Matching lists of members become matching types, whether there are none, one or more of them. -/
theorem combine {members members' : List TypeId} {empty : TypeId} {whole : List TypeId → Descriptor}
    (empties : ρ.Matches a a' empty empty)
    (wholes : ∀ members members', List.Forall₂ (ρ.Matches a a') members members' →
      ρ.Pairs (ρ.Matches a a') (whole members) (whole members'))
    (made : (match members with
      | [] => (empty, a)
      | [member] => (member, a)
      | members => a.intern (whole members)) = (type, b))
    (made' : (match members' with
      | [] => (empty, a')
      | [member] => (member, a')
      | members => a'.intern (whole members)) = (type', b'))
    (h : List.Forall₂ (ρ.Matches a a') members members') : ρ.Matches b b' type type' := by
  cases h with
  | nil =>
    cases made
    cases made'
    exact empties
  | cons here rest =>
    cases rest with
    | nil =>
      cases made
      cases made'
      exact here
    | cons next others => exact intern made made' (wholes _ _ (.cons here (.cons next others)))

end Renaming.Matches

namespace Lowering

/-! ## Expressions -/

/-- The names known in the two places lead to definitions and types that correspond. -/
structure Corresponds (ρ : Renaming) (targets : Targets) (scope : Scope) (a : Arena) (targets' : Targets)
    (scope' : Scope) (a' : Arena) : Prop where
  targets : ∀ name target target', targets.lookup name = some target →
    targets'.lookup name = some target' → ρ.definitions target.id target'.id
  scope : ∀ name type type', scope.lookup name = some type → scope'.lookup name = some type' →
    ρ.Matches a a' type type'

section
variable {ρ : Renaming} {targets targets' : Targets} {scope scope' : Scope}
  {ids ids' : List DefinitionId} {parameters parameters' : List ParameterId}

theorem Corresponds.mono {a b a' b' : Arena} (h : Corresponds ρ targets scope a targets' scope' a')
    (grown : a.Extends b) (grown' : a'.Extends b') : Corresponds ρ targets scope b targets' scope' b' where
  targets := h.targets
  scope name type type' found found' := (h.scope name type type' found found').mono grown grown'

variable (oneToOne : ρ.IsOneToOne)
include oneToOne

mutual

/-- An expression that is entered twice becomes two types that match. -/
theorem matches_lower {a b a' b' : Arena} (expr : TypeExpr) {type type' : TypeId}
    (made : Gives (lower targets scope expr) a type b)
    (made' : Gives (lower targets' scope' expr) a' type' b')
    (site : Site targets ids parameters scope a) (site' : Site targets' ids' parameters' scope' a')
    (same : Corresponds ρ targets scope a targets' scope' a') : ρ.Matches b b' type type' := by
  cases expr with
  | keyword word =>
    simp only [lower] at made made'
    obtain ⟨rfl, rfl⟩ := gives_pure.1 made
    obtain ⟨rfl, rfl⟩ := gives_pure.1 made'
    exact .builtin site.stage.sound site'.stage.sound (isBuiltin_ofKeyword word)
  | buffer =>
    simp only [lower] at made made'
    obtain ⟨rfl, rfl⟩ := gives_pure.1 made
    obtain ⟨rfl, rfl⟩ := gives_pure.1 made'
    exact .builtin site.stage.sound site'.stage.sound rfl
  | booleanLiteral value =>
    simp only [lower] at made made'
    obtain ⟨rfl, rfl⟩ := gives_pure.1 made
    obtain ⟨rfl, rfl⟩ := gives_pure.1 made'
    exact .builtin site.stage.sound site'.stage.sound (by cases value <;> rfl)
  | stringLiteral | numberLiteral | view =>
    simp only [lower] at made made'
    exact .intern (gives_onArena.1 made) (gives_onArena.1 made') (.plain trivial)
  | array element =>
    simp only [lower] at made made'
    obtain ⟨part, middle, first, made⟩ := gives_bind.1 made
    obtain ⟨part', middle', first', made'⟩ := gives_bind.1 made'
    have parts := matches_lower element first first' site site' same
    exact .intern (gives_onArena.1 made) (gives_onArena.1 made') (.array parts)
  | tuple elements =>
    simp only [lower] at made made'
    obtain ⟨entries, middle, first, made⟩ := gives_bind.1 made
    obtain ⟨entries', middle', first', made'⟩ := gives_bind.1 made'
    have parts := matches_lowerElements elements first first' site site' same
    exact .intern (gives_onArena.1 made) (gives_onArena.1 made') (.tuple parts)
  | object properties index =>
    simp only [lower] at made made'
    obtain ⟨members, between, first, made⟩ := gives_bind.1 made
    obtain ⟨members', between', first', made'⟩ := gives_bind.1 made'
    obtain ⟨signature, middle, second, made⟩ := gives_bind.1 made
    obtain ⟨signature', middle', second', made'⟩ := gives_bind.1 made'
    have parts := matches_lowerProperties properties first first' site site' same
    obtain ⟨site₁, grown₁⟩ := site.lowerProperties first
    obtain ⟨site₁', grown₁'⟩ := site'.lowerProperties first'
    have index := matches_lowerOption index second second' site₁ site₁' (same.mono grown₁ grown₁')
    obtain ⟨-, grown₂⟩ := site₁.lowerOption second
    obtain ⟨-, grown₂'⟩ := site₁'.lowerOption second'
    refine .intern (gives_onArena.1 made) (gives_onArena.1 made') (.object ⟨?_, index⟩)
    refine parts.imp fun _ _ pair => ⟨pair.name, ?_, pair.optional, pair.method, pair.symbolKeyed⟩
    exact optionRel_imp pair.type fun _ _ related => related.mono grown₂ grown₂'
  | union members =>
    simp only [lower] at made made'
    obtain ⟨types, middle, first, made⟩ := gives_bind.1 made
    obtain ⟨types', middle', first', made'⟩ := gives_bind.1 made'
    have parts := matches_lowerAll members first first' site site' same
    obtain ⟨after, -⟩ := site.lowerAll first
    obtain ⟨after', -⟩ := site'.lowerAll first'
    have leaves := Renaming.Matches.flatten Arena.unionMembers?_subset
      (fun _ _ => Renaming.Matches.unionMembers?) oneToOne after.stage.sound.ordered after.once
      after'.stage.sound.ordered after'.once parts
    exact .combine (.builtin after.stage.sound after'.stage.sound rfl) (fun _ _ related => .union related)
      (gives_onArena.1 made) (gives_onArena.1 made') leaves
  | intersection members =>
    simp only [lower] at made made'
    obtain ⟨types, middle, first, made⟩ := gives_bind.1 made
    obtain ⟨types', middle', first', made'⟩ := gives_bind.1 made'
    have parts := matches_lowerAll members first first' site site' same
    obtain ⟨after, -⟩ := site.lowerAll first
    obtain ⟨after', -⟩ := site'.lowerAll first'
    have leaves := Renaming.Matches.flatten Arena.intersectionMembers?_subset
      (fun _ _ => Renaming.Matches.intersectionMembers?) oneToOne after.stage.sound.ordered after.once
      after'.stage.sound.ordered after'.once parts
    exact .combine (.builtin after.stage.sound after'.stage.sound rfl) (fun _ _ related => .intersection related)
      (gives_onArena.1 made) (gives_onArena.1 made') leaves
  | reference name arguments =>
    simp only [lower] at made made'
    cases found : targets.lookup name with
    | none =>
      rw [found] at made
      exact absurd made gives_throw
    | some target =>
      cases found' : targets'.lookup name with
      | none =>
        rw [found'] at made'
        exact absurd made' gives_throw
      | some target' =>
        simp only [found] at made
        simp only [found'] at made'
        split at made
        · exact absurd made gives_throw
        · split at made'
          · exact absurd made' gives_throw
          · obtain ⟨types, middle, first, made⟩ := gives_bind.1 made
            obtain ⟨types', middle', first', made'⟩ := gives_bind.1 made'
            have parts := matches_lowerAll arguments first first' site site' same
            have targets := same.targets name target target' found found'
            exact .intern (gives_onArena.1 made) (gives_onArena.1 made') (.reference ⟨targets, parts⟩)
  | parameter name =>
    simp only [lower] at made made'
    cases found : scope.lookup name with
    | none =>
      rw [found] at made
      exact absurd made gives_throw
    | some known =>
      cases found' : scope'.lookup name with
      | none =>
        rw [found'] at made'
        exact absurd made' gives_throw
      | some known' =>
        simp only [found] at made
        simp only [found'] at made'
        obtain ⟨rfl, rfl⟩ := gives_pure.1 made
        obtain ⟨rfl, rfl⟩ := gives_pure.1 made'
        exact same.scope name _ _ found found'
  | indexAccess whole key =>
    simp only [lower] at made made'
    obtain ⟨object, between, first, made⟩ := gives_bind.1 made
    obtain ⟨object', between', first', made'⟩ := gives_bind.1 made'
    obtain ⟨index, middle, second, made⟩ := gives_bind.1 made
    obtain ⟨index', middle', second', made'⟩ := gives_bind.1 made'
    have wholes := matches_lower whole first first' site site' same
    obtain ⟨site₁, grown₁⟩ := site.lower first
    obtain ⟨site₁', grown₁'⟩ := site'.lower first'
    have keys := matches_lower key second second' site₁ site₁' (same.mono grown₁ grown₁')
    obtain ⟨-, grown₂⟩ := site₁.lower second
    obtain ⟨-, grown₂'⟩ := site₁'.lower second'
    exact .intern (gives_onArena.1 made) (gives_onArena.1 made')
      (.indexAccess (wholes.mono grown₂ grown₂') keys)
  | keyof operand =>
    simp only [lower] at made made'
    obtain ⟨part, middle, first, made⟩ := gives_bind.1 made
    obtain ⟨part', middle', first', made'⟩ := gives_bind.1 made'
    have parts := matches_lower operand first first' site site' same
    exact .intern (gives_onArena.1 made) (gives_onArena.1 made') (.keyof parts)

theorem matches_lowerAll {a b a' b' : Arena} (exprs : List TypeExpr) {types types' : List TypeId}
    (made : Gives (lowerAll targets scope exprs) a types b)
    (made' : Gives (lowerAll targets' scope' exprs) a' types' b')
    (site : Site targets ids parameters scope a) (site' : Site targets' ids' parameters' scope' a')
    (same : Corresponds ρ targets scope a targets' scope' a') :
    List.Forall₂ (ρ.Matches b b') types types' := by
  cases exprs with
  | nil =>
    simp only [lowerAll] at made made'
    obtain ⟨rfl, rfl⟩ := gives_pure.1 made
    obtain ⟨rfl, rfl⟩ := gives_pure.1 made'
    exact .nil
  | cons expr rest =>
    simp only [lowerAll] at made made'
    obtain ⟨type, middle, first, made⟩ := gives_bind.1 made
    obtain ⟨type', middle', first', made'⟩ := gives_bind.1 made'
    obtain ⟨others, _, second, made⟩ := gives_bind.1 made
    obtain ⟨others', _, second', made'⟩ := gives_bind.1 made'
    obtain ⟨rfl, rfl⟩ := gives_pure.1 made
    obtain ⟨rfl, rfl⟩ := gives_pure.1 made'
    have here := matches_lower expr first first' site site' same
    obtain ⟨site₁, grown₁⟩ := site.lower first
    obtain ⟨site₁', grown₁'⟩ := site'.lower first'
    have later := matches_lowerAll rest second second' site₁ site₁' (same.mono grown₁ grown₁')
    exact .cons (here.mono (site₁.lowerAll second).2 (site₁'.lowerAll second').2) later

theorem matches_lowerOption {a b a' b' : Arena} (expr? : Option TypeExpr) {type? type?' : Option TypeId}
    (made : Gives (lowerOption targets scope expr?) a type? b)
    (made' : Gives (lowerOption targets' scope' expr?) a' type?' b')
    (site : Site targets ids parameters scope a) (site' : Site targets' ids' parameters' scope' a')
    (same : Corresponds ρ targets scope a targets' scope' a') :
    Option.Rel (ρ.Matches b b') type? type?' := by
  cases expr? with
  | none =>
    simp only [lowerOption] at made made'
    obtain ⟨rfl, rfl⟩ := gives_pure.1 made
    obtain ⟨rfl, rfl⟩ := gives_pure.1 made'
    exact .none
  | some expr =>
    simp only [lowerOption] at made made'
    obtain ⟨type, _, first, made⟩ := gives_bind.1 made
    obtain ⟨type', _, first', made'⟩ := gives_bind.1 made'
    obtain ⟨rfl, rfl⟩ := gives_pure.1 made
    obtain ⟨rfl, rfl⟩ := gives_pure.1 made'
    exact .some (matches_lower expr first first' site site' same)

theorem matches_lowerElements {a b a' b' : Arena} (elements : List (TypeExpr × Bool))
    {entries entries' : List TupleElement} (made : Gives (lowerElements targets scope elements) a entries b)
    (made' : Gives (lowerElements targets' scope' elements) a' entries' b')
    (site : Site targets ids parameters scope a) (site' : Site targets' ids' parameters' scope' a')
    (same : Corresponds ρ targets scope a targets' scope' a') :
    List.Forall₂ (TupleElement.Pairs (ρ.Matches b b')) entries entries' := by
  cases elements with
  | nil =>
    simp only [lowerElements] at made made'
    obtain ⟨rfl, rfl⟩ := gives_pure.1 made
    obtain ⟨rfl, rfl⟩ := gives_pure.1 made'
    exact .nil
  | cons element rest =>
    obtain ⟨expr, optional⟩ := element
    simp only [lowerElements] at made made'
    obtain ⟨type, middle, first, made⟩ := gives_bind.1 made
    obtain ⟨type', middle', first', made'⟩ := gives_bind.1 made'
    obtain ⟨others, _, second, made⟩ := gives_bind.1 made
    obtain ⟨others', _, second', made'⟩ := gives_bind.1 made'
    obtain ⟨rfl, rfl⟩ := gives_pure.1 made
    obtain ⟨rfl, rfl⟩ := gives_pure.1 made'
    have here := matches_lower expr first first' site site' same
    obtain ⟨site₁, grown₁⟩ := site.lower first
    obtain ⟨site₁', grown₁'⟩ := site'.lower first'
    have later := matches_lowerElements rest second second' site₁ site₁' (same.mono grown₁ grown₁')
    exact .cons ⟨here.mono (site₁.lowerElements second).2 (site₁'.lowerElements second').2, rfl⟩ later

theorem matches_lowerProperties {a b a' b' : Arena} (properties : List (PropertyHead × Option TypeExpr))
    {members members' : List Property} (made : Gives (lowerProperties targets scope properties) a members b)
    (made' : Gives (lowerProperties targets' scope' properties) a' members' b')
    (site : Site targets ids parameters scope a) (site' : Site targets' ids' parameters' scope' a')
    (same : Corresponds ρ targets scope a targets' scope' a') :
    List.Forall₂ (Property.Pairs (ρ.Matches b b')) members members' := by
  cases properties with
  | nil =>
    simp only [lowerProperties] at made made'
    obtain ⟨rfl, rfl⟩ := gives_pure.1 made
    obtain ⟨rfl, rfl⟩ := gives_pure.1 made'
    exact .nil
  | cons property rest =>
    obtain ⟨head, expr?⟩ := property
    simp only [lowerProperties] at made made'
    obtain ⟨type?, middle, first, made⟩ := gives_bind.1 made
    obtain ⟨type?', middle', first', made'⟩ := gives_bind.1 made'
    obtain ⟨others, _, second, made⟩ := gives_bind.1 made
    obtain ⟨others', _, second', made'⟩ := gives_bind.1 made'
    obtain ⟨rfl, rfl⟩ := gives_pure.1 made
    obtain ⟨rfl, rfl⟩ := gives_pure.1 made'
    have here := matches_lowerOption expr? first first' site site' same
    obtain ⟨site₁, grown₁⟩ := site.lowerOption first
    obtain ⟨site₁', grown₁'⟩ := site'.lowerOption first'
    have later := matches_lowerProperties rest second second' site₁ site₁' (same.mono grown₁ grown₁')
    have grown₂ := (site₁.lowerProperties second).2
    have grown₂' := (site₁'.lowerProperties second').2
    refine .cons ⟨rfl, ?_, rfl, rfl, rfl⟩ later
    exact optionRel_imp here fun _ _ related => related.mono grown₂ grown₂'

end

end

end Lowering

end ShapeCheck
