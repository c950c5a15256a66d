import ShapeCheck.Proofs.Renaming.Documents
import ShapeCheck.Proofs.Renaming.Simulation

set_option autoImplicit false

/-! # The order of definitions

Definitions of a document may come in any order, and others may be added that nothing refers to. Handles
change, and so do the numbers of definitions, but neither shows: a definition with a plain name of its
own is called by that name, and everything else follows the structure of types.

Main fact: `Document.compile_reordered`.
-/

namespace ShapeCheck

namespace Lowering

/-! ## Counterparts -/

/-- Definitions and parameters correspond if they come from the same declaration. -/
def counterparts (declared declared' : List Declared) : Renaming where
  definitions id id' := ∃ d ∈ declared, ∃ d' ∈ declared', d.decl = d'.decl ∧ d.id = id ∧ d'.id = id'
  parameters id id' := ∃ d ∈ declared, ∃ d' ∈ declared', d.decl = d'.decl ∧
    ∃ i : Nat, d.parameters[i]? = some id ∧ d'.parameters[i]? = some id'

theorem counterparts_symm (declared declared' : List Declared) :
    (counterparts declared declared').symm = counterparts declared' declared := by
  unfold counterparts Renaming.symm flip
  congr 1
  · funext id id'
    refine propext ⟨?_, ?_⟩
    · rintro ⟨d, inside, d', inside', same, here, there⟩
      exact ⟨d', inside', d, inside, same.symm, there, here⟩
    · rintro ⟨d', inside', d, inside, same, there, here⟩
      exact ⟨d, inside, d', inside', same.symm, here, there⟩
  · funext id id'
    refine propext ⟨?_, ?_⟩
    · rintro ⟨d, inside, d', inside', same, i, here, there⟩
      exact ⟨d', inside', d, inside, same.symm, i, there, here⟩
    · rintro ⟨d', inside', d, inside, same, i, there, here⟩
      exact ⟨d, inside, d', inside', same.symm, i, here, there⟩

section
variable {document document' : Document} {targets targets' : Targets} {declared declared' : List Declared}
  {final final' : Arena} {root root' : TypeId}

/-- Of a document that has been lowered no two declarations are the same. -/
theorem Lowered.eq_of_decl (lowered : Lowered document targets declared final root) {d e : Declared}
    (inside : d ∈ declared) (among : e ∈ declared) (same : d.decl = e.decl) : d = e := by
  have names : ((declared.map Declared.decl).map DefinitionDecl.name).Nodup := by
    rw [lowered.declares.decls]
    exact lowered.declares.names
  exact List.inj_on_of_nodup_map (List.Nodup.of_map _ names) inside among same

theorem Lowered.eq_of_id (lowered : Lowered document targets declared final root) {d e : Declared}
    (inside : d ∈ declared) (among : e ∈ declared) (same : d.id = e.id) : d = e :=
  List.inj_on_of_nodup_map lowered.ids inside among same

/-- A parameter has its place in one definition alone. -/
theorem Lowered.eq_of_parameter (lowered : Lowered document targets declared final root) {d e : Declared}
    (inside : d ∈ declared) (among : e ∈ declared) {i j : Nat} {id : ParameterId}
    (here : d.parameters[i]? = some id) (there : e.parameters[j]? = some id) : d = e ∧ i = j := by
  obtain ⟨own, apart⟩ := List.nodup_flatMap.1 lowered.parameters
  have same : d = e := by
    by_contra different
    have : Std.Symm (Function.onFun List.Disjoint Declared.parameters) := ⟨fun _ _ h => List.Disjoint.symm h⟩
    have disjoint : List.Disjoint d.parameters e.parameters := apart.forall inside among different
    exact disjoint (List.mem_of_getElem? here) (List.mem_of_getElem? there)
  subst same
  refine ⟨rfl, ?_⟩
  obtain ⟨small, here⟩ := List.getElem?_eq_some_iff.1 here
  obtain ⟨small', there⟩ := List.getElem?_eq_some_iff.1 there
  exact (List.Nodup.getElem_inj_iff (own d inside)).1 (here.trans there.symm)

/-- To one thing in the first arena at most one in the second corresponds. -/
theorem Lowered.rightUnique (lowered : Lowered document targets declared final root)
    (lowered' : Lowered document' targets' declared' final' root') :
    Relator.RightUnique (counterparts declared declared').definitions ∧
      Relator.RightUnique (counterparts declared declared').parameters := by
  constructor
  · rintro _ _ _ ⟨d, inside, d', inside', same, rfl, rfl⟩ ⟨e, among, e', among', equal, here, rfl⟩
    obtain rfl := lowered.eq_of_id inside among here.symm
    rw [lowered'.eq_of_decl inside' among' (same.symm.trans equal)]
  · rintro _ _ _ ⟨d, inside, d', inside', same, i, here, here'⟩ ⟨e, among, e', among', equal, j, there, there'⟩
    obtain ⟨rfl, rfl⟩ := lowered.eq_of_parameter inside among here there
    obtain rfl := lowered'.eq_of_decl inside' among' (same.symm.trans equal)
    exact Option.some.inj (here'.symm.trans there')

theorem Lowered.isOneToOne (lowered : Lowered document targets declared final root)
    (lowered' : Lowered document' targets' declared' final' root') :
    (counterparts declared declared').IsOneToOne := by
  have forth := lowered.rightUnique lowered'
  have back := lowered'.rightUnique lowered
  rw [← counterparts_symm] at back
  exact ⟨⟨fun _ _ _ first second => back.1 first second, forth.1⟩,
    ⟨fun _ _ _ first second => back.2 first second, forth.2⟩⟩

/-! ## What has been entered -/

/-- Names in scope lead to types that match if they stand for parameters that correspond. -/
theorem matches_of_binds {ρ : Renaming} {a a' : Arena} {scope scope' : Scope}
    {parameters parameters' : List ParameterId} (names : scope.map Prod.fst = scope'.map Prod.fst)
    (binds : Binds scope parameters a) (binds' : Binds scope' parameters' a')
    (same : List.Forall₂ ρ.parameters parameters parameters') (name : String) {type type' : TypeId}
    (found : scope.lookup name = some type) (found' : scope'.lookup name = some type') :
    ρ.Matches a a' type type' := by
  unfold Binds at binds binds'
  have same := List.rel_reverse same
  generalize parameters.reverse = ids at binds same
  generalize parameters'.reverse = ids' at binds' same
  induction binds generalizing scope' ids' with
  | nil => cases found
  | @cons entry id _ _ here _ ih =>
    cases binds' with
    | nil => cases names
    | @cons entry' id' _ _ here' rest =>
      obtain ⟨key, names⟩ := List.cons.inj names
      cases same with
      | cons one others =>
        rw [List.lookup_cons] at found found'
        rw [← key] at found'
        by_cases mine : name = entry.1
        · simp only [mine, beq_self_eq_true, Option.some.injEq] at found found'
          subst found found'
          exact .of_lookup here here' (.parameter one)
        · simp only [beq_eq_false_iff_ne.2 mine] at found found'
          exact ih names found found' _ rest others

/-- The definitions of the first document are all in the second one, and nothing is declared twice. -/
structure Within (document document' : Document) : Prop where
  definitions : ∀ decl ∈ document.definitions, decl ∈ document'.definitions
  root : document'.root = document.root

variable (lowered : Lowered document targets declared final root)
  (lowered' : Lowered document' targets' declared' final' root') (within : Within document document')
include lowered lowered' within

/-- A name leads to definitions that correspond. -/
theorem Within.counterpart {d d' : Declared} (inside : d ∈ declared) (inside' : d' ∈ declared')
    (same : d.decl.name = d'.decl.name) : d.decl = d'.decl := by
  have here : d.decl ∈ document'.definitions := by
    apply within.definitions
    rw [← lowered.declares.decls]
    exact List.mem_map_of_mem inside
  have there : d'.decl ∈ document'.definitions := by
    rw [← lowered'.declares.decls]
    exact List.mem_map_of_mem inside'
  exact List.inj_on_of_nodup_map lowered'.declares.names here there same

omit within in
theorem forall₂_parameters {d d' : Declared} (inside : d ∈ declared) (inside' : d' ∈ declared')
    (same : d.decl = d'.decl) :
    List.Forall₂ (counterparts declared declared').parameters d.parameters d'.parameters := by
  have lengths : d.parameters.length = d'.parameters.length := by
    rw [(lowered.declares.scopes d inside).arity, (lowered'.declares.scopes d' inside').arity, same]
  refine List.forall₂_iff_get.2 ⟨lengths, fun i small small' => ?_⟩
  exact ⟨d, inside, d', inside', same, i, List.getElem?_eq_getElem small, List.getElem?_eq_getElem small'⟩

/-- What one expression was entered as in the two documents matches. -/
theorem Within.matches_of_enters {parameters parameters' : List ParameterId} {scope scope' : Scope}
    (names : scope.map Prod.fst = scope'.map Prod.fst)
    (same : List.Forall₂ (counterparts declared declared').parameters parameters parameters')
    {expr : TypeExpr} {type type' : TypeId}
    (entered : Enters (Site targets (declared.map Declared.id) parameters scope) targets scope final expr
      type)
    (entered' : Enters (Site targets' (declared'.map Declared.id) parameters' scope') targets' scope' final'
      expr type') :
    (counterparts declared declared').Matches final final' type type' := by
  obtain ⟨a, b, site, made, grown⟩ := entered
  obtain ⟨a', b', site', made', grown'⟩ := entered'
  refine (matches_lower (lowered.isOneToOne lowered') expr made made' site site' ⟨?_, ?_⟩).mono grown grown'
  · intro name target target' found found'
    obtain ⟨d, inside, named, leads⟩ := lowered.leads name target found
    obtain ⟨d', inside', named', leads'⟩ := lowered'.leads name target' found'
    have decls := within.counterpart lowered lowered' inside inside' (named.trans named'.symm)
    exact ⟨d, inside, d', inside', decls, leads, leads'⟩
  · intro name type type' found found'
    exact matches_of_binds names site.binds site'.binds same name found found'

/-- Definitions that come from one declaration match. -/
theorem Within.definitionsMatch {d d' : Declared} (inside : d ∈ declared) (inside' : d' ∈ declared')
    (same : d.decl = d'.decl) : ∃ definition definition',
    final.definition? d.id = some definition ∧ final'.definition? d'.id = some definition' ∧
      (counterparts declared declared').DefinitionsMatch final final' definition definition' := by
  obtain ⟨body, bases, found, here, related⟩ := (lowered.entered d inside).definition
  obtain ⟨body', bases', found', here', related'⟩ := (lowered'.entered d' inside').definition
  have parameters := forall₂_parameters lowered lowered' inside inside' same
  have names : d.scope.map Prod.fst = d'.scope.map Prod.fst := by
    rw [lowered.names d inside, lowered'.names d' inside', same]
  rw [← same] at here' related'
  refine ⟨_, _, found, found', parameters, .some ?_, ?_⟩
  · exact within.matches_of_enters lowered lowered' names parameters here here'
  · refine List.forall₂_iff_get.2 ⟨related.length_eq.symm.trans related'.length_eq, fun i small small' => ?_⟩
    have listed : i < d.decl.bases.length := related.length_eq ▸ small
    exact within.matches_of_enters lowered lowered' names parameters (related.get listed small)
      (related'.get listed small')

/-- Parameters at the same place of one declaration have matching defaults. -/
theorem Within.defaultsMatch {d d' : Declared} (inside : d ∈ declared) (inside' : d' ∈ declared')
    (same : d.decl = d'.decl) {i : Nat} {id id' : ParameterId} (here : d.parameters[i]? = some id)
    (there : d'.parameters[i]? = some id') :
    Option.Rel ((counterparts declared declared').Matches final final') (final.default? id)
      (final'.default? id') := by
  have parameters := forall₂_parameters lowered lowered' inside inside' same
  have names : d.scope.map Prod.fst = d'.scope.map Prod.fst := by
    rw [lowered.names d inside, lowered'.names d' inside', same]
  obtain ⟨small, rfl⟩ := List.getElem?_eq_some_iff.1 here
  obtain ⟨small', rfl⟩ := List.getElem?_eq_some_iff.1 there
  have listed : i < d.decl.parameters.length := by
    rwa [← (lowered.declares.scopes d inside).arity]
  have listed' : i < d'.decl.parameters.length := same ▸ listed
  obtain ⟨default, found, entered⟩ := (lowered.entered d inside).defaults.get listed small
  obtain ⟨default', found', entered'⟩ := (lowered'.entered d' inside').defaults.get listed' small'
  have decls : d.decl.parameters.get ⟨i, listed⟩ = d'.decl.parameters.get ⟨i, listed'⟩ := by
    simp only [List.get_eq_getElem, same]
  rw [← decls] at entered'
  have isDefault : final.default? d.parameters[i] = default := by
    rw [Arena.default?, show final.parameter? d.parameters[i] = _ from found]
    rfl
  have isDefault' : final'.default? d'.parameters[i] = default' := by
    rw [Arena.default?, show final'.parameter? d'.parameters[i] = _ from found']
    rfl
  rw [isDefault, isDefault']
  generalize (d.decl.parameters.get ⟨i, listed⟩).default = expr? at entered entered'
  cases entered with
  | none =>
    cases entered'
    exact .none
  | some one =>
    cases entered' with
    | some other => exact .some (within.matches_of_enters lowered lowered' names parameters one other)

omit lowered' within in
/-- A definition with a plain name is called by it, since no other definition has this name. -/
theorem Lowered.definitionName (plain : ∀ decl ∈ document.definitions, isPlainName decl.name = true)
    {d : Declared} (inside : d ∈ declared) : final.definitionName d.id = d.decl.name := by
  obtain ⟨body, bases, found, -⟩ := (lowered.entered d inside).definition
  have listed : d.decl ∈ document.definitions := by
    rw [← lowered.declares.decls]
    exact List.mem_map_of_mem inside
  have names : (final.definitions.toList.map Definition.name).Nodup := by
    refine List.pairwise_map.2 (List.pairwise_iff_getElem.2 fun i j small small' less equal => ?_)
    have known {i : Nat} (small : i < final.definitions.toList.length) :
        ∃ e ∈ declared, e.id = ⟨i⟩ ∧ final.definitions.toList[i].name = e.decl.name := by
      have here : final.definition? ⟨i⟩ = some final.definitions.toList[i] := by
        rw [Arena.definition?, ← Array.getElem?_toList]
        exact List.getElem?_eq_getElem small
      obtain ⟨e, among, same⟩ := List.mem_map.1 (lowered.known _ _ here)
      obtain ⟨_, _, there, -⟩ := (lowered.entered e among).definition
      rw [same, here] at there
      exact ⟨e, among, same, by rw [Option.some.inj there]⟩
    obtain ⟨e, among, same, named⟩ := known small
    obtain ⟨e', among', same', named'⟩ := known small'
    have decls : e.decl = e'.decl := Within.counterpart lowered lowered ⟨fun _ here => here, rfl⟩ among among'
      (named.symm.trans (equal.trans named'))
    obtain rfl := lowered.eq_of_decl among among' decls
    have index := congrArg DefinitionId.index (same.symm.trans same')
    simp only at index
    omega
  have single : final.isNameShared d.decl.name = false := by
    have few := List.nodup_iff_count_le_one.1 names d.decl.name
    rw [List.count, List.countP_map, List.countP_eq_length_filter] at few
    exact decide_eq_false (Nat.not_lt.2 few)
  unfold Arena.definitionName
  rw [found]
  simp [single, plain d.decl listed]

/-- The arenas of the two documents are the same, up to the renaming. -/
theorem Within.relates (plain : ∀ decl ∈ document'.definitions, isPlainName decl.name = true) :
    (counterparts declared declared').Relates final final' where
  oneToOne := lowered.isOneToOne lowered'
  builtin _ isBuiltin := .builtin lowered.sound lowered'.sound isBuiltin
  definitions := by
    rintro _ _ ⟨d, inside, d', inside', same, rfl, rfl⟩
    exact within.definitionsMatch lowered lowered' inside inside' same
  names := by
    rintro _ _ ⟨d, inside, d', inside', same, rfl, rfl⟩
    rw [lowered'.definitionName plain inside', ← same]
    exact lowered.definitionName (fun decl listed => plain decl (within.definitions decl listed)) inside
  defaults := by
    rintro _ _ ⟨d, inside, d', inside', same, i, here, there⟩
    exact within.defaultsMatch lowered lowered' inside inside' same here there

/-- The roots of the two documents match. -/
theorem Within.roots : (counterparts declared declared').Matches final final' root root' := by
  have entered := lowered'.root
  rw [within.root] at entered
  exact within.matches_of_enters lowered lowered' rfl .nil lowered.root entered

end

end Lowering

/-! ## Documents -/

/-- Resolving depends on which definitions there are, not on their order. -/
theorem Resolves.of_subset {definitions definitions' : List DefinitionDecl} {reference : String × Nat}
    (h : Resolves definitions reference) (more : ∀ decl ∈ definitions, decl ∈ definitions') :
    Resolves definitions' reference := by
  obtain ⟨decl, inside, named, enough⟩ := h
  exact ⟨decl, more decl inside, named, enough⟩

section
variable {document document' : Document} {added : List DefinitionDecl}

theorem DefinitionDecl.references_subset {decl : DefinitionDecl} (inside : decl ∈ document.definitions) :
    decl.references ⊆ document.references :=
  fun _ here => List.mem_append_left _ (List.mem_flatMap.2 ⟨decl, inside, here⟩)

/-- Definitions added to a well-formed document in any place leave it well-formed, and can be left out if
nothing refers to them. -/
theorem Document.isWellFormed_reordered
    (listed : document'.definitions.Perm (document.definitions ++ added))
    (root : document'.root = document.root) (names : (document'.definitions.map DefinitionDecl.name).Nodup)
    (wellFormed : ∀ decl ∈ added, decl.IsWellFormed document'.definitions) :
    document.IsWellFormed ↔ document'.IsWellFormed ∧
      ∀ decl ∈ added, ∀ reference ∈ document.references, reference.1 ≠ decl.name := by
  have among (decl : DefinitionDecl) :
      decl ∈ document'.definitions ↔ decl ∈ document.definitions ∨ decl ∈ added := by
    rw [listed.mem_iff, List.mem_append]
  have more (decl : DefinitionDecl) (inside : decl ∈ document.definitions) :
      decl ∈ document'.definitions := (among decl).2 (.inl inside)
  have distinct := (listed.map DefinitionDecl.name).nodup_iff.1 names
  rw [List.map_append, List.nodup_append] at distinct
  obtain ⟨own, -, apart⟩ := distinct
  constructor
  · intro h
    constructor
    · refine ⟨names, fun decl inside => ?_, fun reference here => ?_, root ▸ h.parameters⟩
      · rcases (among decl).1 inside with old | new
        · have before := h.definitions decl old
          exact ⟨fun r here => (before.references r here).of_subset more, before.parameters, before.bases⟩
        · exact wellFormed decl new
      · rw [root] at here
        exact (h.references reference here).of_subset more
    · intro decl new reference here same
      -- the document resolves the reference by a definition of its own
      obtain ⟨other, inside, named, -⟩ : Resolves document.definitions reference := by
        rcases List.mem_append.1 here with here | here
        · obtain ⟨user, inside, here⟩ := List.mem_flatMap.1 here
          exact (h.definitions user inside).references reference here
        · exact h.references reference here
      exact apart _ (List.mem_map_of_mem inside) _ (List.mem_map_of_mem new) (named.trans same)
  · rintro ⟨h, unused⟩
    have fewer (reference : String × Nat) (here : reference ∈ document.references)
        (resolves : Resolves document'.definitions reference) : Resolves document.definitions reference := by
      obtain ⟨decl, inside, named, enough⟩ := resolves
      rcases (among decl).1 inside with old | new
      · exact ⟨decl, old, named, enough⟩
      · exact absurd named.symm (unused decl new reference here)
    refine ⟨own, fun decl inside => ?_, fun reference here => ?_, root ▸ h.parameters⟩
    · have before := h.definitions decl (more decl inside)
      refine ⟨fun reference here => ?_, before.parameters, before.bases⟩
      exact fewer reference (DefinitionDecl.references_subset inside here) (before.references reference here)
    · exact fewer reference (List.mem_append_right _ here) (h.references reference (root ▸ here))

/-- The definitions of a document may come in any order, and others may be among them that nothing in the
document refers to: this changes neither whether the document can be lowered, nor whether its root can be
compiled, nor the validator, whatever the options. -/
theorem Document.compile_reordered
    (listed : document'.definitions.Perm (document.definitions ++ added))
    (root : document'.root = document.root) (names : (document'.definitions.map DefinitionDecl.name).Nodup)
    (plain : ∀ decl ∈ document'.definitions, isPlainName decl.name = true)
    (wellFormed : ∀ decl ∈ added, decl.IsWellFormed document'.definitions) :
    ((∃ type arena, document.lower .initial = (.ok type, arena)) ↔
        (∃ type arena, document'.lower .initial = (.ok type, arena)) ∧
          ∀ decl ∈ added, ∀ reference ∈ document.references, reference.1 ≠ decl.name) ∧
      ∀ type arena type' arena', document.lower .initial = (.ok type, arena) →
        document'.lower .initial = (.ok type', arena') → ∀ options : CompileOptions,
          (arena.compile type options).toOption = (arena'.compile type' options).toOption := by
  constructor
  · rw [document.exists_lower_iff, document'.exists_lower_iff]
    exact Document.isWellFormed_reordered listed root names wellFormed
  · intro type arena type' arena' made made' options
    obtain ⟨targets, declared, lowered⟩ := Document.lowered_of_lower made
    obtain ⟨targets', declared', lowered'⟩ := Document.lowered_of_lower made'
    have within : Lowering.Within document document' :=
      ⟨fun decl inside => listed.mem_iff.2 (List.mem_append_left _ inside), root⟩
    exact (within.relates lowered lowered' plain).compile (within.roots lowered lowered') options

/-- A tree of texts, with its definitions in this order. -/
def grove : Document where
  definitions := [⟨"Leaf", [], [], .keyword .string⟩,
    ⟨"Tree", [⟨"Item", none⟩], [], .union [.parameter "Item", .array (.reference "Tree" [.parameter "Item"])]⟩]
  root := .reference "Tree" [.reference "Leaf" []]

/-- The same with the definitions in another order, and with one more in front. -/
def regrown : Document where
  definitions := [⟨"Twig", [], [], .reference "Leaf" []⟩,
    ⟨"Tree", [⟨"Item", none⟩], [], .union [.parameter "Item", .array (.reference "Tree" [.parameter "Item"])]⟩,
    ⟨"Leaf", [], [], .keyword .string⟩]
  root := .reference "Tree" [.reference "Leaf" []]

theorem compile_reordered_grove :
    (regrown.definitions.map DefinitionDecl.name).Nodup ∧
      (∀ decl ∈ regrown.definitions, isPlainName decl.name = true) ∧
        ∀ type arena type' arena', grove.lower .initial = (.ok type, arena) →
          regrown.lower .initial = (.ok type', arena') → ∀ options : CompileOptions,
            (arena.compile type options).toOption = (arena'.compile type' options).toOption := by
  have names : (regrown.definitions.map DefinitionDecl.name).Nodup := by decide
  have plain : ∀ decl ∈ regrown.definitions, isPlainName decl.name = true := by
    have all : ∀ name ∈ regrown.definitions.map DefinitionDecl.name, isPlainName name = true := by decide
    exact fun decl inside => all _ (List.mem_map_of_mem inside)
  have backwards (x y z : DefinitionDecl) : [x, y, z].Perm ([z, y] ++ [x]) := List.reverse_perm [z, y, x]
  have listed : regrown.definitions.Perm (grove.definitions ++ [⟨"Twig", [], [], .reference "Leaf" []⟩]) :=
    backwards _ _ _
  refine ⟨names, plain, (Document.compile_reordered listed rfl names plain ?_).2⟩
  intro decl inside
  obtain rfl := List.mem_singleton.1 inside
  refine ⟨fun reference here => ?_, nofun, nofun⟩
  obtain rfl := List.mem_singleton.1 here
  exact ⟨⟨"Leaf", [], [], .keyword .string⟩, by simp [regrown], rfl, Nat.le_refl 0⟩

/-- What is not reachable from the root has to make sense as well: this document has a definition that
nothing refers to and that refers to `Fresh`, so it can only be lowered once `Fresh` is there. -/
def stray : Document where
  definitions := [⟨"Stray", [], [], .reference "Fresh" []⟩]
  root := .keyword .string

/-- The same with a definition of `Fresh`. -/
def tamed : Document where
  definitions := [⟨"Stray", [], [], .reference "Fresh" []⟩, ⟨"Fresh", [], [], .keyword .string⟩]
  root := .keyword .string

theorem exists_unreachable_reference :
    tamed.definitions = stray.definitions ++ [⟨"Fresh", [], [], .keyword .string⟩] ∧
      tamed.root = stray.root ∧ stray.root.references = [] ∧
        (tamed.definitions.map DefinitionDecl.name).Nodup ∧
          (∀ name ∈ tamed.definitions.map DefinitionDecl.name, isPlainName name = true) ∧
            (∃ type arena, tamed.lower .initial = (.ok type, arena)) ∧
              ¬ ∃ type arena, stray.lower .initial = (.ok type, arena) := by
  have names : (tamed.definitions.map DefinitionDecl.name).Nodup := by decide
  refine ⟨rfl, rfl, rfl, names, by decide, ?_, ?_⟩
  · rw [Document.exists_lower_iff]
    refine ⟨names, fun decl inside => ?_, nofun, rfl⟩
    rcases List.mem_cons.1 inside with rfl | inside
    · refine ⟨fun reference here => ?_, nofun, nofun⟩
      obtain rfl := List.mem_singleton.1 here
      exact ⟨⟨"Fresh", [], [], .keyword .string⟩, by simp [tamed], rfl, Nat.le_refl 0⟩
    · obtain rfl := List.mem_singleton.1 inside
      exact ⟨nofun, nofun, nofun⟩
  · rw [Document.exists_lower_iff]
    intro wellFormed
    obtain ⟨decl, inside, named, -⟩ := (wellFormed.definitions _ List.mem_cons_self).references
      ("Fresh", 0) List.mem_cons_self
    obtain rfl := List.mem_singleton.1 inside
    exact absurd named (by decide)

end

end ShapeCheck
