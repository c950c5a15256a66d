import ShapeCheck.Proofs.Documents.Steps
import ShapeCheck.Proofs.Documents.WellFormed
import ShapeCheck.Proofs.Simulation.Descriptors

set_option autoImplicit false

/-! # What a lowered document holds

Entering one definition leaves all others alone. At the end a definition has its name, the parameters that
were declared for it, and its body, its bases and the defaults of its parameters as they were entered on
the way. What has been in the arena before is as it was.

What the places are like where expressions are entered depends on what is to be known of them; `IsPlace`
says what entering a document has to keep.

Main facts: `Lowering.opened_declareAll` and `Lowering.IsPlace.entered_lowerDefinitions`.
-/

namespace ShapeCheck

namespace Lowering

variable {targets : Targets} {scope : Scope} {a b c : Arena}

/-! ## Places -/

/-- What is known wherever the parts of a definition are entered, and is kept by entering them. -/
structure IsPlace (targets : Targets) (P : Declared → Arena → Prop) : Prop where
  lower {d : Declared} {a b : Arena} {expr : TypeExpr} {type : TypeId} (place : P d a)
    (made : Gives (Lowering.lower targets d.scope expr) a type b) : P d b
  setDefault {d : Declared} {a b : Arena} {expr : TypeExpr} {type : TypeId} (place : P d a)
    (made : Gives (Lowering.lower targets d.scope expr) a type b) (id : ParameterId) :
    P d (b.setDefault id type)
  addBase {d : Declared} {a b : Arena} {name : String} {arguments : List TypeExpr} {type : TypeId}
    (place : P d a) (made : Gives (Lowering.lower targets d.scope (.reference name arguments)) a type b)
    {definition : Definition} (known : b.definition? d.id = some definition)
    (own : definition.parameters = d.parameters) : P d (b.addBase d.id type)
  define {d : Declared} {a b : Arena} {expr : TypeExpr} {type : TypeId} (place : P d a)
    (made : Gives (Lowering.lower targets d.scope expr) a type b) {definition : Definition}
    (known : b.definition? d.id = some definition) (own : definition.parameters = d.parameters) :
    P d (b.define d.id type)
  /-- The definitions are entered in one arena. -/
  other {d e : Declared} {a b : Arena} (place : P d b) (before : P e a) (grown : a.Extends b) : P e b

/-- The type is what the expression was entered as, at such a place and at some time before. -/
def Enters (P : Arena → Prop) (targets : Targets) (scope : Scope) (final : Arena) (expr : TypeExpr)
    (type : TypeId) : Prop :=
  ∃ a b, P a ∧ Gives (lower targets scope expr) a type b ∧ b.Extends final

theorem Enters.mono {P : Arena → Prop} {expr : TypeExpr} {type : TypeId}
    (h : Enters P targets scope a expr type) (grown : a.Extends b) : Enters P targets scope b expr type := by
  obtain ⟨before, after, place, made, grown'⟩ := h
  exact ⟨before, after, place, made, grown'.trans grown⟩

/-- The type is what an expression in the definition was entered as. -/
abbrev Declared.Enters (P : Declared → Arena → Prop) (targets : Targets) (d : Declared) (final : Arena) :
    TypeExpr → TypeId → Prop :=
  Lowering.Enters (P d) targets d.scope final

/-! ## Defaults -/

theorem parameter?_setDefault (a : Arena) (id other : ParameterId) (type : TypeId) :
    (a.setDefault id type).parameter? other =
      if other = id then (a.parameter? id).map fun info => { info with default := some type }
      else a.parameter? other := by
  simp only [Arena.parameter?, Arena.setDefault, Array.getElem?_modify]
  by_cases same : other = id
  · simp [same]
  · have different : id.index ≠ other.index := by
      intro equal
      apply same
      cases id
      cases other
      exact congrArg ParameterId.mk equal.symm
    simp [same, different]

/-- The default of a parameter as it was entered. -/
def Declared.HasDefault (P : Declared → Arena → Prop) (targets : Targets) (d : Declared) (final : Arena)
    (decl : ParameterDecl) (id : ParameterId) : Prop :=
  ∃ default, final.parameter? id = some ⟨decl.name, default⟩ ∧
    Option.Rel (d.Enters P targets final) decl.default default

section
variable {P : Declared → Arena → Prop} {d : Declared}

theorem Declared.HasDefault.mono {decl : ParameterDecl} {id : ParameterId}
    (h : d.HasDefault P targets a decl id) (grown : a.Extends b)
    (kept : b.parameter? id = a.parameter? id) : d.HasDefault P targets b decl id := by
  obtain ⟨default, found, entered⟩ := h
  exact ⟨default, kept.trans found, optionRel_imp entered fun _ _ here => here.mono grown⟩

theorem IsPlace.entered_lowerDefaults (isPlace : IsPlace targets P)
    (entries : List (ParameterDecl × ParameterId)) {u : Unit}
    (made : Gives (lowerDefaults targets d.scope entries) a u b) (place : P d a)
    (distinct : (entries.map Prod.snd).Nodup)
    (blank : ∀ entry ∈ entries, a.parameter? entry.2 = some ⟨entry.1.name, none⟩) :
    P d b ∧ a.Extends b ∧ b.definitions = a.definitions ∧
      (∀ entry ∈ entries, d.HasDefault P targets b entry.1 entry.2) ∧
      ∀ id ∉ entries.map Prod.snd, b.parameter? id = a.parameter? id := by
  induction entries generalizing a with
  | nil =>
    obtain ⟨-, rfl⟩ := gives_pure.1 made
    exact ⟨place, .refl a, rfl, nofun, fun _ _ => rfl⟩
  | cons entry rest ih =>
    obtain ⟨decl, id⟩ := entry
    obtain ⟨new, distinct⟩ := List.nodup_cons.1 distinct
    have here := blank (decl, id) List.mem_cons_self
    have later : ∀ entry ∈ rest, a.parameter? entry.2 = some ⟨entry.1.name, none⟩ :=
      fun entry inside => blank entry (List.mem_cons_of_mem _ inside)
    simp only [lowerDefaults] at made
    cases given : decl.default with
    | none =>
      simp only [given] at made
      obtain ⟨place', grown, same, entered, kept⟩ := ih made place distinct later
      refine ⟨place', grown, same, ?_, fun other outside => kept other fun inside => outside ?_⟩
      · intro entry inside
        rcases List.mem_cons.1 inside with rfl | inside
        · exact ⟨none, (kept id new).trans here, given ▸ .none⟩
        · exact entered entry inside
      · exact List.mem_cons_of_mem _ inside
    | some expr =>
      simp only [given] at made
      obtain ⟨type, middle, first, made⟩ := gives_bind.1 made
      obtain ⟨_, _, set_, made⟩ := gives_bind.1 made
      obtain rfl := gives_modify.1 set_
      have grown₁ := extends_lower first
      obtain ⟨same₁, untouched⟩ := frame_lower first
      have grown₂ := Arena.extends_setDefault middle id type
      -- other parameters are as they were
      have unchanged (other : ParameterId) (different : other ≠ id) :
          (middle.setDefault id type).parameter? other = a.parameter? other := by
        rw [parameter?_setDefault, if_neg different]
        simp only [Arena.parameter?, untouched]
      obtain ⟨place', grown, same, entered, kept⟩ := ih made (isPlace.setDefault place first id) distinct
        fun entry inside => by
          rw [unchanged entry.2 fun equal => new (List.mem_map.2 ⟨entry, inside, equal⟩)]
          exact later entry inside
      refine ⟨place', (grown₁.trans grown₂).trans grown, same.trans same₁, ?_, ?_⟩
      · intro entry inside
        rcases List.mem_cons.1 inside with rfl | inside
        · refine ⟨some type, ?_, ?_⟩
          · rw [kept id new, parameter?_setDefault, if_pos rfl, Arena.parameter?, untouched]
            exact congrArg _ here
          · rw [given]
            exact .some ⟨a, middle, place, first, grown₂.trans grown⟩
        · exact entered entry inside
      · intro other outside
        rw [List.map_cons, List.mem_cons, not_or] at outside
        rw [kept other outside.2, unchanged other outside.1]

/-! ## Bases -/

theorem IsPlace.entered_lowerBases (isPlace : IsPlace targets P) (bases : List TypeExpr) {u : Unit}
    (made : Gives (lowerBases targets d bases) a u b) (place : P d a)
    {definition : Definition} (known : a.definition? d.id = some definition)
    (own : definition.parameters = d.parameters) :
    P d b ∧ a.Extends b ∧ b.parameters = a.parameters ∧
      (∃ entered, List.Forall₂ (d.Enters P targets b) bases entered ∧
        b.definition? d.id = some { definition with bases := definition.bases ++ entered }) ∧
      ∀ id, id ≠ d.id → b.definition? id = a.definition? id := by
  induction bases generalizing a definition with
  | nil =>
    obtain ⟨-, rfl⟩ := gives_pure.1 made
    exact ⟨place, .refl a, rfl, ⟨[], .nil, by simpa using known⟩, fun _ _ => rfl⟩
  | cons expr rest ih =>
    simp only [lowerBases] at made
    split at made
    · rename_i name arguments
      obtain ⟨base, middle, first, made⟩ := gives_bind.1 made
      obtain ⟨_, _, added, made⟩ := gives_bind.1 made
      obtain rfl := gives_modify.1 added
      have grown₁ := extends_lower first
      obtain ⟨same₁, untouched⟩ := frame_lower first
      have here : middle.definition? d.id = some definition := by
        rw [Arena.definition?, same₁]
        exact known
      have grown₂ := Arena.extends_addBase middle d.id base
      have found (id : DefinitionId) : (middle.addBase d.id base).definition? id =
          if id = d.id then (middle.definition? d.id).map fun known =>
            { known with bases := known.bases ++ [base] } else middle.definition? id :=
        Arena.definition?_modify_eq middle d.id id _
      have extended : (middle.addBase d.id base).definition? d.id =
          some { definition with bases := definition.bases ++ [base] } := by
        rw [found, if_pos rfl, here, Option.map_some]
      obtain ⟨place', grown, same, ⟨entered, related, there⟩, others⟩ :=
        ih made (isPlace.addBase place first here own) extended own
      refine ⟨place', (grown₁.trans grown₂).trans grown, same.trans untouched,
        ⟨base :: entered, ?_, ?_⟩, ?_⟩
      · exact .cons ⟨a, middle, place, first, grown₂.trans grown⟩ related
      · rw [there]
        simp
      · intro id different
        rw [others id different, found, if_neg different, Arena.definition?, same₁]
        rfl
    · obtain ⟨_, _, impossible, -⟩ := gives_bind.1 made
      exact absurd impossible gives_throw

/-! ## Definitions -/

/-- The definition is declared, and nothing else is known of it yet. -/
structure Declared.IsBlank (d : Declared) (a : Arena) : Prop where
  definition : a.definition? d.id = some ⟨d.decl.name, d.parameters, none, []⟩
  parameters : List.Forall₂ (fun decl id => a.parameter? id = some ⟨decl.name, none⟩) d.decl.parameters
    d.parameters

/-- The arena holds the definition as it was entered. -/
structure Declared.IsEntered (P : Declared → Arena → Prop) (targets : Targets) (d : Declared)
    (final : Arena) : Prop where
  definition : ∃ body bases,
    final.definition? d.id = some ⟨d.decl.name, d.parameters, some body, bases⟩ ∧
      d.Enters P targets final d.decl.body body ∧
      List.Forall₂ (d.Enters P targets final) d.decl.bases bases
  defaults : List.Forall₂ (d.HasDefault P targets final) d.decl.parameters d.parameters

/-- Entering a definition touches nothing that belongs to another one. -/
theorem IsPlace.entered_lowerDefinition (isPlace : IsPlace targets P) {u : Unit}
    (made : Gives (lowerDefinition targets d) a u b) (place : P d a) (distinct : d.parameters.Nodup)
    (blank : d.IsBlank a) :
    P d b ∧ a.Extends b ∧ d.IsEntered P targets b ∧
      (∀ id, id ≠ d.id → b.definition? id = a.definition? id) ∧
      ∀ id ∉ d.parameters, b.parameter? id = a.parameter? id := by
  obtain ⟨_, first, defaults, made⟩ := gives_bind.1 made
  obtain ⟨_, second, bases, made⟩ := gives_bind.1 made
  obtain ⟨body, third, entered, made⟩ := gives_bind.1 made
  obtain rfl := gives_modify.1 made
  have all : (d.decl.parameters.zip d.parameters).map Prod.snd = d.parameters :=
    List.map_snd_zip (Nat.le_of_eq blank.parameters.length_eq.symm)
  obtain ⟨place₁, grown₁, same₁, hasDefault, kept⟩ := isPlace.entered_lowerDefaults _ defaults place
    (by rwa [all]) fun entry inside => List.forall₂_zip blank.parameters inside
  rw [all] at kept
  have known₁ : first.definition? d.id = some ⟨d.decl.name, d.parameters, none, []⟩ := by
    rw [Arena.definition?, same₁]
    exact blank.definition
  obtain ⟨place₂, grown₂, same₂, ⟨types, related, known₂⟩, others⟩ :=
    isPlace.entered_lowerBases _ bases place₁ known₁ rfl
  have grown₃ := extends_lower entered
  obtain ⟨same₃, untouched⟩ := frame_lower entered
  have known₃ : third.definition? d.id = some ⟨d.decl.name, d.parameters, none, [] ++ types⟩ := by
    rw [Arena.definition?, same₃]
    exact known₂
  have grown₄ := Arena.extends_define third d.id body
  have found (id : DefinitionId) : (third.define d.id body).definition? id =
      if id = d.id then (third.definition? d.id).map fun known => { known with body := some body }
      else third.definition? id := Arena.definition?_modify_eq third d.id id _
  have final := (grown₂.trans grown₃).trans grown₄
  have parameters (id : ParameterId) : (third.define d.id body).parameter? id = first.parameter? id := by
    simp only [Arena.parameter?, Arena.define, untouched, same₂]
  refine ⟨isPlace.define place₂ entered known₃ rfl, grown₁.trans final, ⟨?_, ?_⟩, ?_, ?_⟩
  · refine ⟨body, types, ?_, ⟨second, third, place₂, entered, grown₄⟩, ?_⟩
    · rw [found, if_pos rfl, known₃]
      rfl
    · exact related.imp fun _ _ here => here.mono (grown₃.trans grown₄)
  · refine List.forall₂_iff_zip.2 ⟨blank.parameters.length_eq, fun {decl id} inside => ?_⟩
    exact (hasDefault (decl, id) inside).mono final (parameters id)
  · intro id different
    rw [found, if_neg different, Arena.definition?, same₃]
    show second.definition? id = _
    rw [others id different, Arena.definition?, same₁]
    rfl
  · intro id outside
    rw [parameters, kept id outside]

theorem Declared.IsEntered.mono (h : d.IsEntered P targets a) (grown : a.Extends b)
    (definition : b.definition? d.id = a.definition? d.id)
    (parameters : ∀ id ∈ d.parameters, b.parameter? id = a.parameter? id) : d.IsEntered P targets b where
  definition := by
    obtain ⟨body, bases, known, here, related⟩ := h.definition
    exact ⟨body, bases, definition.trans known, here.mono grown, related.imp fun _ _ one => one.mono grown⟩
  defaults := by
    refine List.forall₂_iff_zip.2 ⟨h.defaults.length_eq, fun {decl id} inside => ?_⟩
    exact (List.forall₂_zip h.defaults inside).mono grown (parameters id (List.of_mem_zip inside).2)

/-- After all definitions have been entered, each of them is as it was entered. -/
theorem IsPlace.entered_lowerDefinitions (isPlace : IsPlace targets P) (all : List Declared) {u : Unit}
    (made : Gives (all.forM (lowerDefinition targets)) a u b) (places : ∀ d ∈ all, P d a)
    (blank : ∀ d ∈ all, d.IsBlank a) (distinct : (all.map Declared.id).Nodup)
    (parameters : (all.flatMap Declared.parameters).Nodup) :
    a.Extends b ∧ (∀ e, P e a → P e b) ∧ (∀ d ∈ all, d.IsEntered P targets b) ∧
      (∀ id ∉ all.map Declared.id, b.definition? id = a.definition? id) ∧
      ∀ id ∉ all.flatMap Declared.parameters, b.parameter? id = a.parameter? id := by
  induction all generalizing a with
  | nil =>
    obtain ⟨-, rfl⟩ := gives_pure.1 made
    exact ⟨.refl a, fun _ place => place, nofun, fun _ _ => rfl, fun _ _ => rfl⟩
  | cons d rest ih =>
    rw [List.forM_eq_forM, List.forM_cons] at made
    obtain ⟨_, middle, first, made⟩ := gives_bind.1 made
    obtain ⟨new, distinct⟩ := List.nodup_cons.1 distinct
    rw [List.flatMap_cons] at parameters
    obtain ⟨own, parameters, apart⟩ := List.nodup_append.1 parameters
    obtain ⟨place, grown₁, entered, definitions₁, parameters₁⟩ := isPlace.entered_lowerDefinition first
      (places d List.mem_cons_self) own (blank d List.mem_cons_self)
    -- the other definitions are as blank as before
    have different (other : Declared) (inside : other ∈ rest) : other.id ≠ d.id :=
      fun same => new (same ▸ List.mem_map_of_mem inside)
    have foreign (other : Declared) (inside : other ∈ rest) (id : ParameterId) (listed : id ∈ other.parameters) :
        id ∉ d.parameters :=
      fun mine => apart id mine id (List.mem_flatMap.2 ⟨other, inside, listed⟩) rfl
    obtain ⟨grown₂, kept, all, definitions₂, parameters₂⟩ := ih made
      (fun other inside => isPlace.other place (places other (List.mem_cons_of_mem _ inside)) grown₁)
      (fun other inside => by
        have before := blank other (List.mem_cons_of_mem _ inside)
        refine ⟨(definitions₁ _ (different other inside)).trans before.definition, ?_⟩
        refine List.forall₂_iff_zip.2 ⟨before.parameters.length_eq, fun {decl id} listed => ?_⟩
        rw [parameters₁ id (foreign other inside id (List.of_mem_zip listed).2)]
        exact List.forall₂_zip before.parameters listed)
      distinct parameters
    refine ⟨grown₁.trans grown₂, fun e before => kept e (isPlace.other place before grown₁), ?_, ?_, ?_⟩
    · intro other inside
      rcases List.mem_cons.1 inside with rfl | inside
      · refine entered.mono grown₂ (definitions₂ _ new) fun id mine => parameters₂ id fun theirs => ?_
        exact apart id mine id theirs rfl
      · exact all other inside
    · intro id outside
      rw [List.map_cons, List.mem_cons, not_or] at outside
      rw [definitions₂ id outside.2, definitions₁ id outside.1]
    · intro id outside
      rw [List.flatMap_cons, List.mem_append, not_or] at outside
      rw [parameters₂ id outside.2, parameters₁ id outside.1]

end

/-! ## Declarations -/

/-- The names in scope stand for these parameters, of which the last declared comes first. -/
def Binds (scope : Scope) (parameters : List ParameterId) (a : Arena) : Prop :=
  List.Forall₂ (fun entry id => a.lookup? entry.2 = some (.parameter id)) scope parameters.reverse

theorem Binds.mono {parameters : List ParameterId} (h : Binds scope parameters a)
    (grown : a.Extends b) : Binds scope parameters b :=
  h.imp fun _ _ found => grown.descriptors _ _ found

/-- What declaring parameters adds to an arena. -/
structure Grants (decls : List ParameterDecl) (new : List ParameterId) (entries : Scope) (a b : Arena) :
    Prop where
  grown : a.Extends b
  once : a.StoresOnce → b.StoresOnce
  definitions : b.definitions = a.definitions
  indices : new.map ParameterId.index = List.range' a.parameters.size decls.length
  size : b.parameters.size = a.parameters.size + decls.length
  kept : ∀ id : ParameterId, id.index < a.parameters.size → b.parameter? id = a.parameter? id
  infos : List.Forall₂ (fun decl id => b.parameter? id = some ⟨decl.name, none⟩) decls new
  names : entries.map Prod.fst = (decls.map ParameterDecl.name).reverse
  types : Binds entries new b

theorem grants_declareParameters (decls : List ParameterDecl) {before after : List ParameterId}
    {scope' : Scope} (made : Gives (declareParameters before scope decls) a (after, scope') b) :
    ∃ new entries, after = before.reverse ++ new ∧ scope' = entries ++ scope ∧
      Grants decls new entries a b := by
  induction decls generalizing before scope a with
  | nil =>
    obtain ⟨same, rfl⟩ := gives_pure.1 made
    obtain ⟨rfl, rfl⟩ := Prod.mk.inj same
    exact ⟨[], [], by simp, rfl, .refl a, id, rfl, rfl, rfl, fun _ _ => rfl, .nil, rfl, .nil⟩
  | cons decl rest ih =>
    obtain ⟨⟨id, type⟩, middle, added, made⟩ := gives_bind.1 made
    have added := gives_onArena.1 added
    obtain ⟨⟨rfl, rfl⟩, rfl⟩ : ((a.addParameter decl.name).1 = id ∧ (a.addParameter decl.name).2.1 = type) ∧
        (a.addParameter decl.name).2.2 = middle := by simpa using added
    have grown₁ := Arena.extends_addParameter a decl.name
    have definitions₁ : (a.addParameter decl.name).2.2.definitions = a.definitions := by
      rw [Arena.addParameter_eq, Arena.definitions_intern]
    have parameters₁ : (a.addParameter decl.name).2.2.parameters = a.parameters.push ⟨decl.name, none⟩ := by
      rw [Arena.addParameter_eq, Arena.parameters_intern]
    have found : (a.addParameter decl.name).2.2.lookup? (a.addParameter decl.name).2.1 =
        some (.parameter (a.addParameter decl.name).1) := by
      rw [Arena.addParameter_eq]
      exact Arena.lookup?_intern _ _
    have index : (a.addParameter decl.name).1.index = a.parameters.size := rfl
    have once₁ (once : a.StoresOnce) : (a.addParameter decl.name).2.2.StoresOnce := by
      have grown : Arena.StoresOnce { a with parameters := a.parameters.push ⟨decl.name, none⟩ } := once
      exact grown.intern _
    obtain ⟨new, entries, rfl, rfl, grants⟩ := ih made
    generalize (a.addParameter decl.name).1 = id at *
    generalize (a.addParameter decl.name).2.1 = type at *
    generalize (a.addParameter decl.name).2.2 = middle at *
    have size₁ : middle.parameters.size = a.parameters.size + 1 := by
      rw [parameters₁, Array.size_push]
    refine ⟨id :: new, entries ++ [(decl.name, type)], by simp, by simp, grown₁.trans grants.grown,
      fun once => grants.once (once₁ once), grants.definitions.trans definitions₁, ?_, ?_, ?_, ?_, ?_, ?_⟩
    · rw [List.map_cons, grants.indices, index, size₁, List.length_cons, List.range'_succ]
    · rw [grants.size, size₁, List.length_cons]
      omega
    · intro other old
      rw [grants.kept other (by omega), Arena.parameter?, parameters₁, Array.getElem?_push,
        if_neg (Nat.ne_of_lt old)]
      rfl
    · refine .cons ?_ grants.infos
      rw [grants.kept id (by omega), Arena.parameter?, parameters₁, Array.getElem?_push, if_pos index]
    · rw [List.map_append, grants.names]
      simp
    · unfold Binds
      rw [List.reverse_cons]
      refine List.rel_append grants.types (.cons ?_ .nil)
      exact grants.grown.descriptors _ _ found

/-- All definitions are declared after those of the first arena, in the order of their handles, and nothing
else is known of them. -/
structure Opened (base : Arena) (targets : Targets) (declared : List Declared) (a : Arena) : Prop where
  grown : base.Extends a
  once : base.StoresOnce → a.StoresOnce
  ids : declared.map (·.id.index) = List.range' base.definitions.size declared.length
  definitionCount : a.definitions.size = base.definitions.size + declared.length
  parameters : (declared.flatMap Declared.parameters).map ParameterId.index =
    List.range' base.parameters.size (declared.flatMap Declared.parameters).length
  parameterCount : a.parameters.size =
    base.parameters.size + (declared.flatMap Declared.parameters).length
  oldDefinitions : ∀ id : DefinitionId, id.index < base.definitions.size →
    a.definition? id = base.definition? id
  oldParameters : ∀ id : ParameterId, id.index < base.parameters.size →
    a.parameter? id = base.parameter? id
  blank : ∀ d ∈ declared, d.IsBlank a
  names : ∀ d ∈ declared, d.scope.map Prod.fst = (d.decl.parameters.map ParameterDecl.name).reverse
  scopes : ∀ d ∈ declared, Binds d.scope d.parameters a
  targets : ∀ name target, targets.lookup name = some target →
    ∃ d ∈ declared, d.decl.name = name ∧ d.id = target.id

theorem opened_nil (base : Arena) : Opened base [] [] base :=
  ⟨.refl base, id, rfl, rfl, rfl, rfl, fun _ _ => rfl, fun _ _ => rfl, nofun, nofun, nofun, nofun⟩

namespace Opened

variable {base : Arena} {declared : List Declared} (opened : Opened base targets declared a)
include opened

theorem nodup_ids : (declared.map Declared.id).Nodup := by
  refine List.Nodup.of_map DefinitionId.index ?_
  rw [List.map_map]
  exact opened.ids ▸ List.nodup_range'

theorem nodup_parameters : (declared.flatMap Declared.parameters).Nodup := by
  refine List.Nodup.of_map ParameterId.index ?_
  exact opened.parameters ▸ List.nodup_range'

theorem index_bounds {d : Declared} (inside : d ∈ declared) :
    base.definitions.size ≤ d.id.index ∧ d.id.index < a.definitions.size := by
  have listed : d.id.index ∈ declared.map (·.id.index) := List.mem_map_of_mem inside
  rw [opened.ids, List.mem_range'_1, ← opened.definitionCount] at listed
  exact listed

theorem parameter_bounds {d : Declared} (inside : d ∈ declared) {id : ParameterId}
    (mine : id ∈ d.parameters) : base.parameters.size ≤ id.index ∧ id.index < a.parameters.size := by
  have listed : id.index ∈ (declared.flatMap Declared.parameters).map ParameterId.index :=
    List.mem_map_of_mem (List.mem_flatMap.2 ⟨d, inside, mine⟩)
  rw [opened.parameters, List.mem_range'_1, ← opened.parameterCount] at listed
  exact listed

/-- What was there before is not declared again. -/
theorem not_mem_ids {id : DefinitionId} (old : id.index < base.definitions.size) :
    id ∉ declared.map Declared.id := by
  intro listed
  obtain ⟨d, inside, rfl⟩ := List.mem_map.1 listed
  exact absurd old (Nat.not_lt.2 (opened.index_bounds inside).1)

theorem not_mem_parameters {id : ParameterId} (old : id.index < base.parameters.size) :
    id ∉ declared.flatMap Declared.parameters := by
  intro listed
  obtain ⟨d, inside, mine⟩ := List.mem_flatMap.1 listed
  exact absurd old (Nat.not_lt.2 (opened.parameter_bounds inside mine).1)

end Opened

theorem opened_declareAll {base : Arena} (decls : List DefinitionDecl) {before after : List Declared}
    {targets' : Targets} (made : Gives (declareAll targets before decls) a (targets', after) b)
    (opened : Opened base targets before.reverse a) : Opened base targets' after b := by
  induction decls generalizing targets before a with
  | nil =>
    obtain ⟨same, rfl⟩ := gives_pure.1 made
    obtain ⟨rfl, rfl⟩ := Prod.mk.inj same
    exact opened
  | cons decl rest ih =>
    simp only [declareAll] at made
    split at made
    · exact absurd made gives_throw
    · obtain ⟨⟨new, entries⟩, middle, first, made⟩ := gives_bind.1 made
      obtain ⟨id, open_, second, made⟩ := gives_bind.1 made
      obtain ⟨_, _, same, same', grants⟩ := grants_declareParameters decl.parameters first
      simp only [List.reverse_nil, List.nil_append, List.append_nil] at same same'
      subst same same'
      have second := gives_onArena.1 second
      obtain ⟨rfl, rfl⟩ : DefinitionId.mk middle.definitions.size = id ∧
          { middle with definitions := middle.definitions.push ⟨decl.name, new, none, []⟩ } = open_ := by
        simpa [Arena.declare] using second
      have grown : middle.Extends
          { middle with definitions := middle.definitions.push ⟨decl.name, new, none, []⟩ } :=
        Arena.extends_declare middle decl.name new
      apply ih made
      rw [List.reverse_cons]
      have arity : new.length = decl.parameters.length := by
        simpa using congrArg List.length grants.indices
      -- what was declared before stays as it was
      have older {id : DefinitionId} (small : id.index < a.definitions.size) :
          Arena.definition?
              { middle with definitions := middle.definitions.push ⟨decl.name, new, none, []⟩ } id =
            a.definition? id := by
        rw [← grants.definitions] at small
        rw [Arena.definition?, Array.getElem?_push, if_neg (Nat.ne_of_lt small), grants.definitions]
        rfl
      refine ⟨(opened.grown.trans grants.grown).trans grown, fun once => grants.once (opened.once once),
        ?_, ?_, ?_, ?_, ?_, ?_, ?_, ?_, ?_, ?_⟩
      · rw [List.map_append, opened.ids, List.length_append, ← List.range'_append_1,
          ← opened.definitionCount, ← grants.definitions]
        rfl
      · rw [Array.size_push, List.length_append, grants.definitions, opened.definitionCount]
        rfl
      · rw [List.flatMap_append, List.map_append, opened.parameters, List.flatMap_singleton, grants.indices,
          List.length_append, ← List.range'_append_1, ← opened.parameterCount, arity]
      · rw [List.flatMap_append, List.length_append, List.flatMap_singleton, arity, ← Nat.add_assoc,
          ← opened.parameterCount]
        exact grants.size
      · intro id old
        rw [older (by have := opened.definitionCount; omega), opened.oldDefinitions id old]
      · intro id old
        exact (grants.kept id (by have := opened.parameterCount; omega)).trans (opened.oldParameters id old)
      · intro d inside
        rcases List.mem_append.1 inside with inside | inside
        · have blank := opened.blank d inside
          constructor
          · rw [older (opened.index_bounds inside).2]
            exact blank.definition
          · refine List.forall₂_iff_zip.2 ⟨blank.parameters.length_eq, fun {other id} listed => ?_⟩
            have small := (opened.parameter_bounds inside (List.of_mem_zip listed).2).2
            exact (grants.kept id small).trans (List.forall₂_zip blank.parameters listed)
        · obtain rfl := List.mem_singleton.1 inside
          refine ⟨?_, grants.infos⟩
          rw [Arena.definition?, Array.getElem?_push, if_pos rfl]
      · intro d inside
        rcases List.mem_append.1 inside with inside | inside
        · exact opened.names d inside
        · obtain rfl := List.mem_singleton.1 inside
          exact grants.names
      · intro d inside
        rcases List.mem_append.1 inside with inside | inside
        · exact (opened.scopes d inside).mono (grants.grown.trans grown)
        · obtain rfl := List.mem_singleton.1 inside
          exact grants.types
      · intro name target found
        rw [List.lookup_cons] at found
        split at found
        · rename_i same
          cases found
          exact ⟨_, List.mem_append_right _ (List.mem_singleton_self _), (eq_of_beq same).symm, rfl⟩
        · obtain ⟨d, inside, named, leads⟩ := opened.targets name target found
          exact ⟨d, List.mem_append_left _ inside, named, leads⟩

end Lowering

end ShapeCheck
