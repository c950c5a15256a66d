import ShapeCheck.Proofs.Documents.Denoting
import ShapeCheck.Proofs.Documents.Entering

set_option autoImplicit false

/-! # Documents read back

A document can be lowered into any arena exactly if its names make sense. Afterwards its root is read back
as it was written, up to the normal form of unions and intersections, and so are the body and the bases of
each of its definitions and the defaults of their parameters. What the arena had before is as it was.

The names of a document mean the definitions that are declared for it, also where the arena has others that
are called the same.

Main fact: `Document.reads_lower`.
-/

namespace ShapeCheck

namespace Lowering

variable {targets : Targets} {scope : Scope} {a : Arena}

/-! ## What names mean -/

/-- Names mean the definitions that references have as targets, and the parameters that the types in scope
stand for. -/
def namesOf (targets : Targets) (scope : Scope) (a : Arena) : Names where
  definitions name id := ∃ target, targets.lookup name = some target ∧ target.id = id
  parameters name id := ∃ type, scope.lookup name = some type ∧ a.lookup? type = some (.parameter id)

/-- Different names mean different things if all that is meant has its name. -/
theorem namesOf_areOneToOne {final : Arena} (inFinal : (namesOf targets scope a).AreIn final) :
    (namesOf targets scope a).AreOneToOne where
  definitions := by
    constructor
    · intro name name' id meant meant'
      obtain ⟨definition, known, rfl⟩ := inFinal.definitions name id meant
      obtain ⟨definition', known', rfl⟩ := inFinal.definitions name' id meant'
      rw [Option.some.inj (known.symm.trans known')]
    · rintro name id id' ⟨target, found, rfl⟩ ⟨target', found', rfl⟩
      rw [Option.some.inj (found.symm.trans found')]
  parameters := by
    constructor
    · intro name name' id meant meant'
      obtain ⟨parameter, known, rfl⟩ := inFinal.parameters name id meant
      obtain ⟨parameter', known', rfl⟩ := inFinal.parameters name' id meant'
      rw [Option.some.inj (known.symm.trans known')]
    · rintro name id id' ⟨type, found, there⟩ ⟨type', found', there'⟩
      cases found.symm.trans found'
      cases there.symm.trans there'
      rfl

/-- A name in scope stands for the parameter that was declared with it. -/
theorem Binds.exists_parameter {parameters : List ParameterId} (binds : Binds scope parameters a)
    {name : String} {type : TypeId} (found : scope.lookup name = some type) :
    ∃ id, a.lookup? type = some (.parameter id) ∧
      ((scope.map Prod.fst).zip parameters.reverse).lookup name = some id := by
  unfold Binds at binds
  generalize parameters.reverse = ids at binds ⊢
  induction binds with
  | nil => cases found
  | @cons entry id _ _ there _ ih =>
    obtain ⟨other, known⟩ := entry
    rw [List.lookup_cons] at found
    rw [List.map_cons, List.zip_cons_cons, List.lookup_cons]
    by_cases same : name = other
    · subst same
      obtain rfl : known = type := by simpa using found
      exact ⟨id, there, by simp⟩
    · rw [beq_eq_false_iff_ne.2 same] at found ⊢
      exact ih found

/-- What is known where the parts of a definition are entered. -/
abbrev Declared.Knows (targets : Targets) (first : Arena) (d : Declared) (a : Arena) : Prop :=
  Lowering.Knows (namesOf targets d.scope first) targets d.scope a

theorem isPlace_knows (targets : Targets) (first : Arena) :
    IsPlace targets (Declared.Knows targets first) where
  lower knows made := knows.mono (extends_lower made) (storesOnce_lower made knows.once)
  setDefault knows made id := knows.update made (Arena.extends_setDefault _ id _) rfl
  addBase {d _ _ _ _ _} knows made {_} _ _ := knows.update made (Arena.extends_addBase _ d.id _) rfl
  define {d _ _ _ _} knows made {_} _ _ := knows.update made (Arena.extends_define _ d.id _) rfl
  other knows before grown := before.mono grown knows.once

/-- What was entered at a place is read back in its normal form. -/
theorem Enters.holds {first final : Arena} {expr : TypeExpr} {type : TypeId} {names : Names}
    (h : Enters (Knows (namesOf targets scope first) targets scope) targets scope final expr type)
    (inFinal : (namesOf targets scope first).AreIn final)
    (implied : (namesOf targets scope first).Implies names) : final.Holds names expr type := by
  obtain ⟨before, after, knows, made, grown⟩ := h
  have meant := (denotes_lower (namesOf_areOneToOne inFinal) expr made knows).mono grown
  exact ⟨meant.reads inFinal, meant.weaken implied⟩

end Lowering

/-! ## Documents -/

/-- The names in a document mean its own definitions, which have their handles in order from the first one,
and the type parameters that are given. -/
def Document.names (document : Document) (first : Nat) (own : List (String × ParameterId)) : Names where
  definitions name id :=
    ∃ (i : Nat) (decl : DefinitionDecl), document.definitions[i]? = some decl ∧ decl.name = name ∧
      id = ⟨first + i⟩
  parameters name id := own.lookup name = some id

/-- The parameters of a definition by their names. If a name comes again, the last one is meant. -/
def DefinitionDecl.own (decl : DefinitionDecl) (parameters : List ParameterId) : List (String × ParameterId) :=
  (decl.parameters.map ParameterDecl.name).reverse.zip parameters.reverse

/-- The arena holds the definition with its body, its bases and the defaults of its parameters. -/
def DefinitionDecl.IsHeld (names : List (String × ParameterId) → Names) (decl : DefinitionDecl)
    (arena : Arena) (id : DefinitionId) : Prop :=
  ∃ parameters body bases,
    arena.definition? id = some ⟨decl.name, parameters, some body, bases⟩ ∧
    arena.Holds (names (decl.own parameters)) decl.body body ∧
    List.Forall₂ (arena.Holds (names (decl.own parameters))) decl.bases bases ∧
    List.Forall₂ (fun parameter id => ∃ default, arena.parameter? id = some ⟨parameter.name, default⟩ ∧
      Option.Rel (arena.Holds (names (decl.own parameters))) parameter.default default)
      decl.parameters parameters

namespace Lowering

variable {targets : Targets} {base first final : Arena} {declared : List Declared}

/-- Definitions have their handles in the order in which they are declared. -/
theorem Opened.index_eq (opened : Opened base targets declared first) {i : Nat} {d : Declared}
    (there : declared[i]? = some d) : d.id = ⟨base.definitions.size + i⟩ := by
  have index : (declared.map (·.id.index))[i]? = some d.id.index := by
    rw [List.getElem?_map, there, Option.map_some]
  rw [opened.ids, List.getElem?_range' (List.getElem?_eq_some_iff.1 there).1] at index
  have index : d.id.index = base.definitions.size + i := by
    have := Option.some.inj index
    omega
  exact congrArg DefinitionId.mk index

/-- What the names in an expression mean has these names once the definitions have been entered. -/
theorem Opened.exists_definition (opened : Opened base targets declared first)
    (entered : ∀ d ∈ declared, d.IsEntered (Declared.Knows targets first) targets final) {scope : Scope}
    {name : String} {id : DefinitionId} (meant : (namesOf targets scope first).definitions name id) :
    ∃ definition, final.definition? id = some definition ∧ definition.name = name := by
  obtain ⟨target, found, rfl⟩ := meant
  obtain ⟨e, among, rfl, same⟩ := opened.targets name target found
  obtain ⟨body, bases, known, -⟩ := (entered e among).definition
  exact ⟨_, same ▸ known, rfl⟩

theorem Opened.areIn (opened : Opened base targets declared first)
    (entered : ∀ d ∈ declared, d.IsEntered (Declared.Knows targets first) targets final)
    {d : Declared} (inside : d ∈ declared) : (namesOf targets d.scope first).AreIn final where
  definitions _ _ meant := opened.exists_definition entered meant
  parameters := by
    rintro name id ⟨type, found, there⟩
    have each : List.Forall₂ (fun name id => ∃ default, final.parameter? id = some ⟨name, default⟩)
        (d.scope.map Prod.fst) d.parameters.reverse := by
      rw [opened.names d inside, List.forall₂_reverse_iff, List.forall₂_map_left_iff]
      exact (entered d inside).defaults.imp fun decl id ⟨default, known, _⟩ => ⟨default, known⟩
    obtain ⟨other, there', own⟩ := (opened.scopes d inside).exists_parameter found
    cases there.symm.trans there'
    obtain ⟨before, later, split, -⟩ := List.lookup_eq_some_iff.1 own
    obtain ⟨default, known⟩ := List.forall₂_zip each
      (split ▸ List.mem_append_right _ List.mem_cons_self)
    exact ⟨_, known, rfl⟩

/-- The names in the part of a definition mean what they mean in the document. -/
theorem Opened.implies (opened : Opened base targets declared first) {document : Document}
    (same : declared.map Declared.decl = document.definitions) {scope : Scope}
    {own : List (String × ParameterId)}
    (parameters : ∀ name id, (namesOf targets scope first).parameters name id → own.lookup name = some id) :
    (namesOf targets scope first).Implies (document.names base.definitions.size own) where
  definitions := by
    rintro name id ⟨target, found, rfl⟩
    obtain ⟨d, inside, named, leads⟩ := opened.targets name target found
    obtain ⟨i, there⟩ := List.mem_iff_getElem?.1 inside
    refine ⟨i, d.decl, ?_, named, ?_⟩
    · rw [← same, List.getElem?_map, there, Option.map_some]
    · rw [← leads, ← opened.index_eq there]
  parameters := parameters

theorem Opened.implies_own (opened : Opened base targets declared first) {document : Document}
    (same : declared.map Declared.decl = document.definitions) {d : Declared} (inside : d ∈ declared) :
    (namesOf targets d.scope first).Implies
      (document.names base.definitions.size (d.decl.own d.parameters)) :=
  opened.implies same fun name id ⟨type, found, there⟩ => by
    obtain ⟨other, there', own⟩ := (opened.scopes d inside).exists_parameter found
    cases there.symm.trans there'
    rwa [opened.names d inside] at own

/-- Before definitions are entered, the names in scope are known. -/
theorem Opened.knows (opened : Opened base targets declared first) (once : base.StoresOnce)
    (builtin : Arena.initial.Extends base) {d : Declared} (inside : d ∈ declared) :
    d.Knows targets first first where
  once := opened.once once
  builtin := builtin.trans opened.grown
  targets name target found := ⟨target, found, rfl⟩
  scope name type found := by
    obtain ⟨id, there, -⟩ := (opened.scopes d inside).exists_parameter found
    exact ⟨id, there, type, found, there⟩

theorem Declared.IsEntered.isHeld {d : Declared} {names : List (String × ParameterId) → Names}
    (entered : d.IsEntered (Declared.Knows targets first) targets final)
    (inFinal : (namesOf targets d.scope first).AreIn final)
    (implied : (namesOf targets d.scope first).Implies (names (d.decl.own d.parameters))) :
    d.decl.IsHeld names final d.id := by
  obtain ⟨body, bases, known, here, related⟩ := entered.definition
  refine ⟨d.parameters, body, bases, known, here.holds inFinal implied,
    related.imp fun _ _ one => one.holds inFinal implied, entered.defaults.imp fun decl id h => ?_⟩
  obtain ⟨default, found, type⟩ := h
  exact ⟨default, found, optionRel_imp type fun _ _ one => one.holds inFinal implied⟩

end Lowering

open Lowering in
/-- A document can be lowered into an arena exactly if its names make sense. If so, its root and all that
belongs to its definitions are read back as they were written, in normal form; the definitions come in
order after those that were there, and these are as they were. -/
theorem Document.reads_lower (document : Document) {arena : Arena} (once : arena.StoresOnce)
    (builtin : Arena.initial.Extends arena) :
    ((∃ root after, document.lower arena = (.ok root, after)) ↔ document.IsWellFormed) ∧
    ∀ root after, document.lower arena = (.ok root, after) →
      after.Holds (document.names arena.definitions.size []) document.root root ∧
      (∀ (i : Nat) (decl : DefinitionDecl), document.definitions[i]? = some decl →
        decl.IsHeld (document.names arena.definitions.size) after ⟨arena.definitions.size + i⟩) ∧
      (∀ (id : DefinitionId) (definition : Definition), after.definition? id = some definition →
        id.index < arena.definitions.size + document.definitions.length) ∧
      (arena.Extends after ∧ after.StoresOnce) ∧
      (∀ id : DefinitionId, id.index < arena.definitions.size →
        after.definition? id = arena.definition? id) ∧
      ∀ id : ParameterId, id.index < arena.parameters.size →
        after.parameter? id = arena.parameter? id := by
  refine ⟨document.exists_lower_iff arena, fun root after lowered => ?_⟩
  obtain ⟨⟨targets, declared⟩, first, declaring, rest⟩ := gives_bind.1
    (show Gives (lowerDocument document) arena root after from lowered)
  obtain ⟨_, second, defining, entering⟩ := gives_bind.1 rest
  have opened := opened_declareAll document.definitions declaring (opened_nil arena)
  have decls := (declares_declareAll declaring).decls
  obtain ⟨grown, kept, entered, definitions, parameters⟩ :=
    (isPlace_knows targets first).entered_lowerDefinitions declared defining
      (fun d inside => opened.knows once builtin inside) opened.blank opened.nodup_ids
      opened.nodup_parameters
  -- the root is entered last, and changes neither definitions nor parameters
  obtain ⟨same, untouched⟩ := frame_lower entering
  have later := extends_lower entering
  have definition (id : DefinitionId) : after.definition? id = second.definition? id := by
    rw [Arena.definition?, same]
    rfl
  have parameter (id : ParameterId) : after.parameter? id = second.parameter? id := by
    rw [Arena.parameter?, untouched]
    rfl
  have entered (d : Declared) (inside : d ∈ declared) :
      d.IsEntered (Declared.Knows targets first) targets after :=
    (entered d inside).mono later (definition d.id) fun id _ => parameter id
  have atRoot : Knows (namesOf targets [] first) targets [] second :=
    kept ⟨default, ⟨0⟩, [], []⟩ ⟨opened.once once, builtin.trans opened.grown,
      fun name target found => ⟨target, found, rfl⟩, by rintro _ _ ⟨⟩⟩
  have named : (namesOf targets [] first).AreIn after :=
    ⟨fun _ _ meant => opened.exists_definition entered meant, by rintro _ _ ⟨_, ⟨⟩, _⟩⟩
  have meant : (namesOf targets [] first).Implies (document.names arena.definitions.size []) :=
    opened.implies decls (by rintro _ _ ⟨_, ⟨⟩, _⟩)
  have count : declared.length = document.definitions.length := by
    rw [← decls, List.length_map]
  refine ⟨Enters.holds ⟨second, after, atRoot, entering, .refl after⟩ named meant,
    fun i decl found => ?_, fun id known found => ?_, ⟨(opened.grown.trans grown).trans later,
      storesOnce_lower entering atRoot.once⟩, fun id old => ?_, fun id old => ?_⟩
  · rw [← decls, List.getElem?_map, Option.map_eq_some_iff] at found
    obtain ⟨d, there, rfl⟩ := found
    have inside := List.mem_of_getElem? there
    rw [← opened.index_eq there]
    exact (entered d inside).isHeld (opened.areIn entered inside) (opened.implies_own decls inside)
  · have size := opened.definitionCount
    rw [count] at size
    rw [← size]
    by_cases listed : id ∈ declared.map Declared.id
    · obtain ⟨d, inside, rfl⟩ := List.mem_map.1 listed
      exact (opened.index_bounds inside).2
    · rw [definition, definitions id listed] at found
      exact (Array.getElem?_eq_some_iff.1 found).1
  · rw [definition, definitions id (opened.not_mem_ids old), opened.oldDefinitions id old]
  · rw [parameter, parameters id (opened.not_mem_parameters old), opened.oldParameters id old]

/-- A generic definition that extends another one, and a root that says twice what it says. -/
def boxes : Document where
  definitions := [⟨"Box", [⟨"Item", some (.keyword .string)⟩], [.reference "Thing" []],
      .object [(⟨"item", false, false, false⟩, some (.parameter "Item"))] none⟩,
    ⟨"Thing", [], [], .object [] (some (.union []))⟩]
  root := .union [.reference "Box" [], .union [.keyword .null, .reference "Box" []]]

theorem Document.reads_lower_boxes :
    (Arena.initial.StoresOnce ∧ Arena.initial.Extends .initial) ∧ boxes.IsWellFormed ∧
    ∃ root after, boxes.lower .initial = (.ok root, after) ∧
      after.ReadsAs root (.union [.reference "Box" [], .keyword .null]) ∧
      (∃ parameters body thing, after.definition? ⟨0⟩ = some ⟨"Box", parameters, some body, [thing]⟩ ∧
        after.ReadsAs body (.object [(⟨"item", false, false, false⟩, some (.parameter "Item"))] none) ∧
        after.ReadsAs thing (.reference "Thing" [])) ∧
      ∃ parameters body, after.definition? ⟨1⟩ = some ⟨"Thing", parameters, some body, []⟩ ∧
        after.ReadsAs body (.object [] (some (.keyword .never))) := by
  have once : Arena.initial.StoresOnce := .initial
  have builtin : Arena.initial.Extends .initial := .refl _
  have lowered : boxes.lower .initial = (.ok ⟨20⟩, (boxes.lower .initial).2) := by decide +kernel
  have union : TypeExpr.normalize boxes.root = .union [.reference "Box" [], .keyword .null] :=
    eq_of_beq (by decide +kernel)
  obtain ⟨works, held⟩ := boxes.reads_lower once builtin
  obtain ⟨⟨reads, -⟩, definitions, -⟩ := held _ _ lowered
  obtain ⟨parameters, body, _, box, inside, extended, -⟩ := definitions 0 _ rfl
  obtain ⟨parameters', body', _, thing, inside', extended', -⟩ := definitions 1 _ rfl
  cases extended' with | nil =>
  cases extended with | cons first rest =>
  cases rest with | nil =>
  refine ⟨⟨once, builtin⟩, works.1 ⟨_, _, lowered⟩, _, _, lowered, union ▸ reads, ?_, ?_⟩
  · exact ⟨parameters, body, _, box, inside.reads, first.reads⟩
  · exact ⟨parameters', body', thing, inside'.reads⟩

end ShapeCheck
