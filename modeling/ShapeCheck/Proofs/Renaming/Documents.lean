import ShapeCheck.Proofs.Renaming.Expressions

set_option autoImplicit false

/-! # Documents in an empty arena

Lowered into an empty arena, a document leaves a sound one in which nothing is stored twice, each of its
definitions is as it was entered, and there are no others.

Main fact: `Document.lowered_of_lower`.
-/

namespace ShapeCheck

namespace Lowering

variable {targets : Targets} {ids : List DefinitionId} {parameters : List ParameterId} {scope : Scope}
  {a b : Arena}

/-! ## The places -/

/-- The place where the parts of a definition are entered. -/
abbrev Declared.Site (targets : Targets) (ids : List DefinitionId) (d : Declared) (a : Arena) : Prop :=
  Lowering.Site targets ids d.parameters d.scope a

/-- Changing a definition keeps the place if the arena stays sound. -/
theorem Site.of_modify (site : Site targets ids parameters scope a) {id : DefinitionId}
    {change : Definition → Definition}
    (sound : Arena.IsSound False { a with definitions := a.definitions.modify id.index change })
    (grown : a.Extends { a with definitions := a.definitions.modify id.index change }) :
    Site targets ids parameters scope { a with definitions := a.definitions.modify id.index change } where
  stage := site.stage.of_modify sound grown
  inScope := site.inScope.extends site.stage.sound.ordered grown
  once := site.once
  binds := site.binds.mono grown

theorem Site.written (site : Site targets ids parameters scope a) {expr : TypeExpr} {type : TypeId}
    (made : Gives (Lowering.lower targets scope expr) a type b) : b.WrittenIn parameters type :=
  (entered_lower expr False.elim made site.stage site.inScope).written type (by simp)

theorem isPlace_site (targets : Targets) (ids : List DefinitionId) :
    IsPlace targets (Declared.Site targets ids) where
  lower site made := (site.lower made).1
  setDefault {d a b expr type} site made id := by
    obtain ⟨site', -⟩ := site.lower made
    have grown := Arena.extends_setDefault b id type
    exact ⟨site'.stage.of_definitions_eq (site'.stage.sound.setDefault (site.written made).1) fun _ => rfl,
      site'.inScope.extends site'.stage.sound.ordered grown, site'.once, site'.binds.mono grown⟩
  addBase {d a b name arguments base} site made {definition} known own := by
    obtain ⟨site', -⟩ := site.lower made
    refine site'.of_modify ?_ (Arena.extends_addBase b d.id base)
    refine site'.stage.sound.addBase (fun other found => ?_) (isReference_lower made)
    obtain rfl := Option.some.inj (known.symm.trans found)
    exact own ▸ site.written made
  define {d a b expr body} site made {definition} known own := by
    obtain ⟨site', -⟩ := site.lower made
    refine site'.of_modify ?_ (Arena.extends_define b d.id body)
    refine site'.stage.sound.define fun other found => ?_
    obtain rfl := Option.some.inj (known.symm.trans found)
    exact own ▸ site.written made
  other site before grown :=
    ⟨site.stage, before.inScope.extends before.stage.sound.ordered grown, site.once, before.binds.mono grown⟩

/-! ## Lowered documents -/

/-- What the arena of a lowered document holds. -/
structure Lowered (document : Document) (targets : Targets) (declared : List Declared) (final : Arena)
    (root : TypeId) : Prop where
  declares : Declares document.definitions targets declared
  leads : ∀ name target, targets.lookup name = some target →
    ∃ d ∈ declared, d.decl.name = name ∧ d.id = target.id
  ids : (declared.map Declared.id).Nodup
  parameters : (declared.flatMap Declared.parameters).Nodup
  names : ∀ d ∈ declared, d.scope.map Prod.fst = (d.decl.parameters.map ParameterDecl.name).reverse
  entered : ∀ d ∈ declared,
    d.IsEntered (Declared.Site targets (declared.map Declared.id)) targets final
  root : Enters (Site targets (declared.map Declared.id) [] []) targets [] final document.root root
  sound : final.IsSound False
  once : final.StoresOnce
  known : ∀ id definition, final.definition? id = some definition → id ∈ declared.map Declared.id

end Lowering

open Lowering in
/-- What is in the arena after a document has been lowered into an empty one. -/
theorem Document.lowered_of_lower {document : Document} {root : TypeId} {final : Arena}
    (made : document.lower .initial = (.ok root, final)) :
    ∃ targets declared, Lowered document targets declared final root := by
  obtain ⟨⟨targets, declared⟩, first, declaring, rest⟩ := gives_bind.1
    (show Gives (lowerDocument document) .initial root final from made)
  obtain ⟨_, second, defining, entering⟩ := gives_bind.1 rest
  obtain ⟨stage₁, isDeclared, -⟩ := declared_declareAll document.definitions declaring
    (stage_initial False) (by rintro _ ⟨⟩) (by rintro _ _ ⟨⟩) fun _ inside => inside
  have opened := opened_declareAll document.definitions declaring (opened_nil .initial)
  obtain ⟨stage₂, -, -⟩ := stage_lowerDefinitions (fun _ _ => False.elim) defining stage₁ fun d inside =>
    (isDeclared d inside).1
  have isPlace := isPlace_site targets (declared.map Declared.id)
  have once := opened.once .initial
  obtain ⟨-, kept, entered, -, -⟩ := isPlace.entered_lowerDefinitions declared defining
    (fun d inside => ⟨stage₁, (isDeclared d inside).1.inScope, once, opened.scopes d inside⟩)
    opened.blank opened.nodup_ids opened.nodup_parameters
  have site : Site targets (declared.map Declared.id) [] [] second :=
    kept ⟨default, ⟨0⟩, [], []⟩ ⟨stage₁, by rintro _ _ ⟨⟩, once, .nil⟩
  obtain ⟨site', grown⟩ := site.lower entering
  obtain ⟨same, untouched⟩ := frame_lower entering
  have kept (d : Declared) : final.definition? d.id = second.definition? d.id := by
    rw [Arena.definition?, same]
    rfl
  refine ⟨targets, declared, declares_declareAll declaring, opened.targets, opened.nodup_ids,
    opened.nodup_parameters, opened.names, fun d inside => ?_, ⟨second, final, site, entering, .refl final⟩,
    site'.stage.sound, site'.once, site'.stage.declared⟩
  refine (entered d inside).mono grown (kept d) fun id _ => ?_
  rw [Arena.parameter?, untouched]
  rfl

end ShapeCheck
